import LendingRelay.Proofs.Serving

/-!
# What lets a call through

Each call has its own list of checks, with the seeds of each check spelled out. The rule behind the
lists is the same for all calls: a declared account with a derived address has to be the one that
the search finds for the market, the reserve, the obligation and the holder at hand, and a bump in
the arguments has to be the bump of that search. Only notes that lie in an account of the caller's
choice are left out. Here the rule is stated once, and the lists are shown to follow it.

* `LendingCall.derivation?`, `LendingCall.bump?`: the rule.
* `LendingCall.addressChecks_eq`: the lists of checks follow the rule.
* `LendingCall.cleared_iff`: a call is cleared exactly when it is authorised.
* `Relay.calls_iff_cleared`: the first call goes out exactly when the request is cleared.
-/

namespace LendingRelay

/-! ## The rule -/

namespace LendingCall

/-- The part whose accounts the call is about. Whoever signs for `LendingCall.repay`, it is the loan
of the obligation's owner. -/
def holder : LendingCall → Role
  | initObligation _ => .borrower
  | initDepositAccount _ => .depositor
  | closeDepositAccount => .depositor
  | custody _ => .depositor
  | borrow _ _ => .borrower
  | repay _ => .obligationOwner
  | _ => .owner

/-- Whether the deposit notes may lie in any account that the caller names, as in the movements
without a bump. -/
def takesAnyNotes : LendingCall → Bool
  | custody ⟨_, none, _⟩ => true
  | _ => false

/-- What the account in a part is derived from, if it is a derived account. The rule has one line
per part, where `LendingCall.addressChecks` has a list per call. -/
def derivation? (call : LendingCall) : Role → Option (AddressKind Role)
  | .marketAuthority => some (.marketAuthority .market)
  | .obligation => some (.obligation .market call.holder)
  | .depositAccount => if call.takesAnyNotes then none else some (.deposit .reserve call.holder)
  | .collateralAccount => some (.collateral .reserve .obligation call.holder)
  | .loanAccount => some (.loan .reserve .obligation call.holder)
  | _ => none

/-- What the rule asks for, byte by byte. The seeds of a kind are a label in ASCII, which the market
authority does not have, and the keys in the order of `AddressKind`. The labels are `obligation`,
`deposits`, `collateral` and `loan`. -/
theorem seeds_map (keys : Role → Pubkey) (kind : AddressKind Role) :
    (kind.map keys).seeds =
      match kind with
      | .marketAuthority mkt => [(keys mkt).bytes]
      | .obligation mkt own =>
        [[111, 98, 108, 105, 103, 97, 116, 105, 111, 110], (keys mkt).bytes, (keys own).bytes]
      | .deposit res own =>
        [[100, 101, 112, 111, 115, 105, 116, 115], (keys res).bytes, (keys own).bytes]
      | .collateral res obl own =>
        [[99, 111, 108, 108, 97, 116, 101, 114, 97, 108], (keys res).bytes, (keys obl).bytes,
          (keys own).bytes]
      | .loan res obl own =>
        [[108, 111, 97, 110], (keys res).bytes, (keys obl).bytes, (keys own).bytes] := by
  have hobligation : Bytes.ofText "obligation" =
      [111, 98, 108, 105, 103, 97, 116, 105, 111, 110] := by decide +kernel
  have hdeposits : Bytes.ofText "deposits" = [100, 101, 112, 111, 115, 105, 116, 115] := by
    decide +kernel
  have hcollateral : Bytes.ofText "collateral" =
      [99, 111, 108, 108, 97, 116, 101, 114, 97, 108] := by decide +kernel
  have hloan : Bytes.ofText "loan" = [108, 111, 97, 110] := by decide +kernel
  cases kind with
  | marketAuthority mkt => rfl
  | obligation mkt own => rw [← hobligation]; rfl
  | deposit res own => rw [← hdeposits]; rfl
  | collateral res obl own => rw [← hcollateral]; rfl
  | loan res obl own => rw [← hloan]; rfl

/-- The bump among the arguments that belongs to the account in a part. -/
def bump? : LendingCall → Role → Option UInt8
  | initObligation bump, .obligation => some bump
  | initDepositAccount bump, .depositAccount => some bump
  | custody move, .depositAccount => move.bump
  | initCollateralAccount bump, .collateralAccount => some bump
  | transferCollateral _ collateralBump _ _, .collateralAccount => some collateralBump
  | transferCollateral _ _ depositBump _, .depositAccount => some depositBump
  | initLoanAccount bump, .loanAccount => some bump
  | borrow bump _, .loanAccount => some bump
  | _, _ => none

/-- Everything that a call has to pass once its accounts are taken: derived accounts are the ones
that `search` finds, with the bumps that were given, and the owner signed or is the `RelayAuthority`
of the market. -/
structure Cleared (call : LendingCall) (seating : Seating) : Prop where
  derived : ∀ slot ∈ call.slots, ∀ kind, call.derivation? slot.role = some kind →
    ∃ bump, search (kind.map seating.key).seeds lendingProgram =
        .found (seating.key slot.role) bump ∧
      ∀ given, call.bump? slot.role = some given → given = bump
  owner : ∀ role, call.ownerRole? = some role →
    (seating.account role).signer = true ∨
      ∃ authority, RelayAuthority.derive (seating.key .market) = .ok authority ∧
        seating.key role = authority.address

/-! ## The lists follow the rule -/

/-- What the rule checks of a declared account: its `derivation?` under its `bump?`. -/
def check? (call : LendingCall) (slot : Slot) : Option AddressCheck :=
  (call.derivation? slot.role).map fun kind =>
    { kind, supplied := slot.role, bump := call.bump? slot.role }

/-- The checks of a call are those of its declared accounts, in their order. Both sides are tables,
so this is a case split on the call. -/
theorem addressChecks_eq (call : LendingCall) :
    call.addressChecks = call.slots.filterMap call.check? := by
  cases call with
  | custody move =>
    obtain ⟨direction, bump, amount⟩ := move
    cases direction <;> cases bump <;> rfl
  | _ => rfl

theorem mem_addressChecks_iff (call : LendingCall) (check : AddressCheck) :
    check ∈ call.addressChecks ↔
      ∃ slot ∈ call.slots, ∃ kind, call.derivation? slot.role = some kind ∧
        check = { kind, supplied := slot.role, bump := call.bump? slot.role } := by
  rw [addressChecks_eq, List.mem_filterMap]
  refine exists_congr fun slot => and_congr_right fun _ => ?_
  rw [check?, Option.map_eq_some_iff]
  exact exists_congr fun kind => and_congr_right fun _ => eq_comm

/-- An owner that signed, or that is the relay's authority of the market, has one of the two ways to
consent. -/
theorem exists_consents_iff (owner : Account) (market : Pubkey) :
    (∃ authority, Consents owner market authority) ↔
      owner.signer = true ∨
        ∃ authority, RelayAuthority.derive market = .ok authority ∧
          owner.key = authority.address := by
  refine ⟨fun hsome => ?_, fun howner => ?_⟩
  · obtain ⟨_, hconsents⟩ := hsome
    cases hconsents with
    | signed hsigner => exact .inl hsigner
    | relay _ hderive hkey => exact .inr ⟨_, hderive, hkey⟩
  · cases hsigner : owner.signer with
    | true => exact ⟨none, .signed hsigner⟩
    | false =>
      rw [hsigner] at howner
      obtain hsigned | ⟨authority, hderive, hkey⟩ := howner
      · cases hsigned
      · exact ⟨some authority, .relay hsigner hderive hkey⟩

/-- `LendingCall.addressChecks` pass together exactly when the derived accounts are right, which is
`mem_addressChecks_iff` on either side. -/
theorem passes_iff (call : LendingCall) (seating : Seating) :
    (∀ check ∈ call.addressChecks, check.Passes seating) ↔
      ∀ slot ∈ call.slots, ∀ kind, call.derivation? slot.role = some kind →
        ∃ bump, search (kind.map seating.key).seeds lendingProgram =
            .found (seating.key slot.role) bump ∧
          ∀ given, call.bump? slot.role = some given → given = bump := by
  refine ⟨fun hpasses slot hslot kind hkind => ?_, fun hderived check hcheck => ?_⟩
  · have hcheck := (call.mem_addressChecks_iff _).mpr ⟨slot, hslot, kind, hkind, rfl⟩
    exact hpasses _ hcheck
  · obtain ⟨slot, hslot, kind, hkind, rfl⟩ := (call.mem_addressChecks_iff check).mp hcheck
    exact hderived slot hslot kind hkind

/-- A call is cleared exactly when it is `LendingCall.Authorized` in some way. The two sides differ
in the authority, which the rule does not name. -/
theorem cleared_iff (call : LendingCall) (seating : Seating) :
    call.Cleared seating ↔ ∃ authority, call.Authorized seating authority := by
  refine ⟨fun hcleared => ?_, fun hsome => ?_⟩
  · have haddresses := (call.passes_iff seating).mpr hcleared.derived
    -- Where nobody has to consent there is no authority either.
    cases hrole : call.ownerRole? with
    | none => exact ⟨none, haddresses, by rw [hrole]⟩
    | some role =>
      obtain ⟨authority, hconsents⟩ :=
        (exists_consents_iff (seating.account role) _).mpr (hcleared.owner role hrole)
      exact ⟨authority, haddresses, by rw [hrole]; exact hconsents⟩
  · obtain ⟨authority, hauthorized⟩ := hsome
    refine ⟨(call.passes_iff seating).mp hauthorized.addresses, fun role hrole => ?_⟩
    have howner := hauthorized.owner
    rw [hrole] at howner
    exact (exists_consents_iff (seating.account role) _).mp ⟨authority, howner⟩

end LendingCall

/-! ## The gate of the relay -/

namespace Request

/-- The request passes on a call of the lending program, and the supplied accounts fit what is
declared for it, in the sense of `Seating.Fits`. -/
def Validated (request : Request) (accounts : List Account) : Prop :=
  match request with
  | forward call => call.Fits accounts
  | accrueThen move =>
    LendingCall.accrueInterest.Fits accounts ∧
      (LendingCall.custody move).Fits (Custody.ownAccounts accounts)
  | _ => False

/-- Everything that is checked about validated accounts, by `LendingCall.Cleared`. The halves of a
composed movement are each checked by themselves, and have to agree on the market and on the
reserve. -/
def Cleared (request : Request) (accounts : List Account) : Prop :=
  match request with
  | forward call => call.Cleared (call.seats accounts)
  | accrueThen move =>
    let accrual := LendingCall.accrueInterest.seats accounts
    let action := (LendingCall.custody move).seats (Custody.ownAccounts accounts)
    accrual.key .market = action.key .market ∧ accrual.key .reserve = action.key .reserve ∧
      LendingCall.accrueInterest.Cleared accrual ∧ (LendingCall.custody move).Cleared action
  | _ => False

end Request

namespace Relay

theorem admits_iff_cleared {call : LendingCall} {accounts : List Account}
    (hfits : call.Fits accounts) :
    (∃ authority, call.Admits accounts authority) ↔ call.Cleared (call.seats accounts) := by
  rw [LendingCall.cleared_iff]
  refine ⟨fun hadmitted => ?_, fun hauthorised => ?_⟩
  · obtain ⟨authority, hadmits⟩ := hadmitted
    exact ⟨authority, hadmits.authorized⟩
  · obtain ⟨authority, hauthorized⟩ := hauthorised
    exact ⟨authority, hfits, hauthorized⟩

theorem admitsAccrued_iff_cleared {move : Custody} {accounts : List Account}
    (hvalidated : (Request.accrueThen move).Validated accounts) :
    (∃ authority, move.AdmitsAccrued accounts authority) ↔
      (Request.accrueThen move).Cleared accounts := by
  obtain ⟨haccrual, haction⟩ := hvalidated
  refine ⟨fun hadmitted => ?_, fun hcleared => ?_⟩
  · obtain ⟨authority, hadmits⟩ := hadmitted
    exact ⟨hadmits.market, hadmits.reserve,
      (admits_iff_cleared haccrual).mp ⟨none, hadmits.accrual⟩,
      (admits_iff_cleared haction).mp ⟨authority, hadmits.action⟩⟩
  · obtain ⟨hmarket, hreserve, hfirst, hsecond⟩ := hcleared
    obtain ⟨nobody, hfirst⟩ := (admits_iff_cleared haccrual).mpr hfirst
    obtain ⟨authority, hsecond⟩ := (admits_iff_cleared haction).mpr hsecond
    -- The accrual is never signed for, whoever signs for the movement.
    rw [hfirst.authority_of_accrueInterest] at hfirst
    exact ⟨authority, hfirst, hsecond, hmarket, hreserve⟩

/-- **The validation gate.** For a request whose arguments are read and whose accounts are
validated, the first call goes out exactly when the request is cleared. Nothing else keeps it back,
and nothing less lets it through. What goes out is known from `calls_forward_ne_nil_iff` and
`calls_accrueThen_ne_nil_iff`; `LendingCall.cleared_iff` turns their condition into the rule. -/
theorem calls_iff_cleared {framework : Framework} {id : Pubkey} {accounts : List Account}
    {data tail : Bytes} {request : Request} (hreads : program.Reads id data request tail)
    (hvalidated : request.Validated accounts) (script : Script) :
    Trace.calls (outcome framework id accounts data script).trace ≠ [] ↔
      request.Cleared accounts := by
  obtain ⟨rfl, rfl⟩ := (reads_iff ..).mp hreads
  rw [calls_outcome]
  -- Only requests for the lending program are validated, so the last two cases are none.
  cases request with
  | forward call => rw [calls_forward_ne_nil_iff, admits_iff_cleared hvalidated, Request.Cleared]
  | accrueThen move => rw [calls_accrueThen_ne_nil_iff, admitsAccrued_iff_cleared hvalidated]
  | report report => exact hvalidated.elim
  | callDummy => exact hvalidated.elim

/-- The borrower puts notes from its deposit account up as collateral. Each of the two accounts has
a bump of its own, and `borrowerObligation` is derived as well. -/
def collateralCall : LendingCall :=
  .transferCollateral .deposit 254 255 ⟨.depositNotes, 7⟩

def collateralAccounts : List Account :=
  [{ key := mainMarket },
   { key := mainMarketAuthority },
   { key := poolReserve },
   { key := borrowerObligation, writable := true },
   { key := borrower, signer := true },
   { key := .ofNat 0x8f3faf556f08d5ddfb35cd5578f6cac573efcce6e55e720efbfc4d1df8b55822
     writable := true },
   { key := .ofNat 0x70a73ac0e24fb2e814317b1d1d05b503d8384eef068cc161e553d8eb5aa04757
     writable := true },
   { key := lendingProgram, executable := true },
   { key := .tokenProgram, executable := true }]

theorem calls_serve_collateralCall :
    Trace.calls (serve (.forward collateralCall) collateralAccounts []).trace =
      [collateralCall.invocation collateralAccounts none] := by
  decide +kernel

/-- `collateralCall` is validated, and it is cleared, since its call goes out. With the two bumps in
each other's place it is validated as well, and not cleared. -/
theorem cleared_collateralCall :
    let swapped := LendingCall.transferCollateral .deposit 255 254 ⟨.depositNotes, 7⟩
    program.Reads relayProgram ((Request.forward collateralCall).data ++ [0xff])
        (.forward collateralCall) [0xff] ∧
      (Request.forward collateralCall).Validated collateralAccounts ∧
      (Request.forward collateralCall).Cleared collateralAccounts ∧
      (Request.forward swapped).Validated collateralAccounts ∧
      ¬(Request.forward swapped).Cleared collateralAccounts := by
  intro swapped
  have hcalls : Trace.calls (outcome .withoutIdl relayProgram collateralAccounts
      ((Request.forward collateralCall).data ++ [0xff]) []).trace ≠ [] := by
    rw [calls_outcome, calls_serve_collateralCall]
    exact List.cons_ne_nil _ _
  have hvalidated : (Request.forward collateralCall).Validated collateralAccounts := by
    rw [calls_outcome, calls_forward_ne_nil_iff] at hcalls
    obtain ⟨authority, hadmits⟩ := hcalls
    exact hadmits.fits
  -- The bumps are no part of what is declared, so the same accounts fit the swapped call.
  have hswapped : (Request.forward swapped).Validated collateralAccounts := hvalidated
  have hrefused : Trace.calls (outcome .withoutIdl relayProgram collateralAccounts
      ((Request.forward swapped).data ++ [0xff]) []).trace = [] := by
    rw [calls_outcome]
    decide +kernel
  refine ⟨reads_data _ _, hvalidated, (calls_iff_cleared (reads_data _ _) hvalidated []).mp hcalls,
    hswapped, fun hcleared => ?_⟩
  exact (calls_iff_cleared (reads_data _ _) hswapped []).mpr hcleared hrefused

end Relay

end LendingRelay
