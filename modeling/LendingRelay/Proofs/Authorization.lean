import LendingRelay.Proofs.Runs
import LendingRelay.Relay.Authorize

/-!
# What authorises a call

The checks in front of a call are done one after the other, and each of them may end the run with a
fault of its own. Here they are stated as one condition on the seats, `LendingCall.Authorized`: the
searched addresses are the supplied ones, and the owner consents. The checks let a call through
exactly under this condition, and a call that is not let through is refused quietly.

* `AddressKind.verify_eq_ok_iff`, `authorizeOwner_eq_ok_iff`: each check as a condition.
* `LendingCall.authorize_of_authorized`, `LendingCall.authorize_of_not_authorized`: the two ways the
  checks go.
* `RelayAuthority.of_derive`: the seeds of a derived authority make its address.
-/

namespace LendingRelay

/-! ## Searched addresses -/

/-- What `searchAmong` finds is the address of the seeds with the bump behind them. Induction on the
candidates: the search stops at the first one that has an address. -/
theorem createProgramAddress?_of_searchAmong {candidates : List UInt8} {seeds : List Bytes}
    {program address : Pubkey} {bump : UInt8}
    (hfound : searchAmong candidates seeds program = .found address bump) :
    createProgramAddress? (seeds ++ [[bump]]) program = some address := by
  induction candidates with
  | nil => cases hfound
  | cons candidate rest ih =>
    unfold searchAmong at hfound
    cases haddress : createProgramAddress? (seeds ++ [[candidate]]) program with
    | some found =>
      rw [haddress] at hfound
      cases hfound
      exact haddress
    | none =>
      rw [haddress] at hfound
      exact ih hfound

theorem createProgramAddress?_of_search {seeds : List Bytes} {program address : Pubkey}
    {bump : UInt8} (hfound : search seeds program = .found address bump) :
    createProgramAddress? (seeds ++ [[bump]]) program = some address := by
  unfold search at hfound
  split at hfound
  · cases hfound
  · exact createProgramAddress?_of_searchAmong hfound

/-- The authority that is derived for a market belongs to that market, and the seeds that it signs
with make its address under the relay. `RelayAuthority.derive` is a `search`, so this is
`createProgramAddress?_of_search` for its seeds. -/
theorem RelayAuthority.of_derive {market : Pubkey} {authority : RelayAuthority}
    (hderive : derive market = .ok authority) :
    authority.market = market ∧
      createProgramAddress? authority.signerSeeds relayProgram = some authority.address := by
  unfold derive at hderive
  cases hsearch : search [label, market.bytes] relayProgram with
  | exhausted =>
    rw [hsearch] at hderive
    cases hderive
  | found address bump =>
    rw [hsearch] at hderive
    cases hderive
    exact ⟨rfl, createProgramAddress?_of_search hsearch⟩

/-! ## One check -/

theorem AddressKind.verify_eq_ok_iff (kind : AddressKind Pubkey) (program supplied : Pubkey)
    (bump : Option UInt8) (canonical : UInt8) :
    kind.verify program supplied bump = .ok canonical ↔
      kind.derive program = .found supplied canonical ∧ ∀ given ∈ bump, given = canonical := by
  unfold AddressKind.verify
  cases kind.derive program with
  | exhausted => simp
  | found expected found =>
    by_cases haddress : expected = supplied
    · cases bump with
      | none => simp [haddress]
      | some given =>
        -- With another bump than the found one, the right side names two different bumps.
        by_cases hbump : given = found
        · simp [haddress, hbump, eq_comm]
        · have hne : ∀ n, found = n → given ≠ n := by
            intro n hn hgiven
            exact hbump (hgiven.trans hn.symm)
          simp only [haddress, ne_eq, not_true_eq_false, ↓reduceIte, hbump, reduceCtorEq,
            Derivation.found.injEq, true_and, Option.mem_def, Option.some.injEq, forall_eq',
            false_iff, not_and]
          exact hne canonical
    · simp [haddress]

/-- The supplied address is the one that `AddressKind.derive` finds, and a bump that came with it is
the bump of the search. -/
def AddressCheck.Passes (check : AddressCheck) (seating : Seating) : Prop :=
  ∃ canonical,
    (check.kind.map seating.key).derive lendingProgram =
        .found (seating.key check.supplied) canonical ∧
      ∀ given ∈ check.bump, given = canonical

/-- How an owner consents to a call: by its own signature, or by being the relay authority of the
market. The second way leaves the authority to sign with. `authorizeOwner_eq_ok_iff` shows that
`authorizeOwner` asks for this. -/
inductive Consents (owner : Account) (market : Pubkey) : Option RelayAuthority → Prop
  | signed (hsigner : owner.signer = true) : Consents owner market none
  | relay {authority : RelayAuthority} (hunsigned : owner.signer = false)
      (hderive : RelayAuthority.derive market = .ok authority)
      (hkey : owner.key = authority.address) : Consents owner market (some authority)

theorem authorizeOwner_eq_ok_iff (owner : Account) (market : Pubkey)
    (authority : Option RelayAuthority) :
    authorizeOwner owner market = .ok authority ↔ Consents owner market authority := by
  unfold authorizeOwner
  refine ⟨fun hok => ?_, fun hconsents => ?_⟩
  · -- The signature is looked at first, and only without one the authority is derived.
    cases hsigner : owner.signer with
    | true =>
      rw [if_pos hsigner] at hok
      cases hok
      exact .signed hsigner
    | false =>
      rw [if_neg (by simp [hsigner])] at hok
      cases hderive : RelayAuthority.derive market with
      | error e =>
        rw [hderive] at hok
        cases hok
      | ok derived =>
        rw [hderive] at hok
        dsimp only at hok
        split at hok
        · next hkey =>
          cases hok
          exact .relay hsigner hderive hkey
        · cases hok
  · cases hconsents with
    | signed hsigner => rw [if_pos hsigner]
    | relay hunsigned hderive hkey =>
      rw [if_neg (by simp [hunsigned]), hderive]
      exact if_pos hkey

/-! ## All checks of a call -/

/-- The condition under which a call goes out, signed as the authority says: each of
`LendingCall.addressChecks` passes, and whoever plays `LendingCall.ownerRole?` consents. -/
structure LendingCall.Authorized (call : LendingCall) (seating : Seating)
    (authority : Option RelayAuthority) : Prop where
  addresses : ∀ check ∈ call.addressChecks, check.Passes seating
  owner :
    match call.ownerRole? with
    | none => authority = none
    | some role => Consents (seating.account role) (seating.key .market) authority

theorem refuses_refuse (note : Option String) (error : RelayError) :
    Run.Refuses (Run.refuse note error : Run α) := by
  cases note with
  | none => exact Run.refuses_fail _
  | some line => exact (Run.quiet_log line).refuses_bind fun _ => Run.refuses_fail _

theorem AddressCheck.require_of_passes {check : AddressCheck} {seating : Seating}
    (hpasses : check.Passes seating) : check.require seating = pure () := by
  obtain ⟨canonical, hcheck⟩ := hpasses
  have hverify := (AddressKind.verify_eq_ok_iff ..).mpr hcheck
  unfold AddressCheck.require requireAddress
  rw [hverify]
  rfl

theorem AddressCheck.require_of_not_passes {check : AddressCheck} {seating : Seating}
    (hpasses : ¬check.Passes seating) : Run.Refuses (check.require seating) := by
  unfold AddressCheck.require requireAddress
  cases hverify : (check.kind.map seating.key).verify lendingProgram (seating.key check.supplied)
      check.bump with
  | ok canonical => exact absurd ⟨canonical, (AddressKind.verify_eq_ok_iff ..).mp hverify⟩ hpasses
  | error fault => exact (refuses_refuse _ _).bind _

/-- The checks pass together or, by `forM_require_of_not_passes`, are refused together. Induction on
the list, since the first check that fails ends the run. -/
theorem forM_require_of_passes {checks : List AddressCheck} {seating : Seating}
    (hpasses : ∀ check ∈ checks, check.Passes seating) :
    (checks.forM fun check => check.require seating) = pure () := by
  induction checks with
  | nil => rfl
  | cons check checks ih =>
    rw [List.forall_mem_cons] at hpasses
    show (check.require seating >>= fun _ => checks.forM fun check => check.require seating) = _
    rw [AddressCheck.require_of_passes hpasses.1, pure_bind, ih hpasses.2]

theorem forM_require_of_not_passes {checks : List AddressCheck} {seating : Seating}
    (hpasses : ¬∀ check ∈ checks, check.Passes seating) :
    Run.Refuses (checks.forM fun check => check.require seating) := by
  induction checks with
  | nil => exact absurd (fun _ h => nomatch h) hpasses
  | cons check checks ih =>
    rw [List.forall_mem_cons] at hpasses
    show Run.Refuses (check.require seating >>= fun _ =>
      checks.forM fun check => check.require seating)
    -- Refused here, or past this check and refused by one behind it.
    by_cases hfirst : check.Passes seating
    · rw [AddressCheck.require_of_passes hfirst, pure_bind]
      exact ih fun hrest => hpasses ⟨hfirst, hrest⟩
    · exact (AddressCheck.require_of_not_passes hfirst).bind _

theorem requireOwner_of_consents {owner : Account} {market : Pubkey}
    {authority : Option RelayAuthority} (hconsents : Consents owner market authority) :
    requireOwner owner market = pure authority := by
  unfold requireOwner
  rw [(authorizeOwner_eq_ok_iff ..).mpr hconsents]

theorem requireOwner_of_not_consents {owner : Account} {market : Pubkey}
    (hnone : ∀ authority, ¬Consents owner market authority) :
    Run.Refuses (requireOwner owner market) := by
  unfold requireOwner
  cases howner : authorizeOwner owner market with
  | ok authority => exact absurd ((authorizeOwner_eq_ok_iff ..).mp howner) (hnone authority)
  | error fault => exact refuses_refuse _ _

namespace LendingCall

/-- Under `LendingCall.Authorized` the checks are the value `authority`, and they leave no trace. -/
theorem authorize_of_authorized {call : LendingCall} {seating : Seating}
    {authority : Option RelayAuthority} (hauthorized : call.Authorized seating authority) :
    call.authorize seating = pure authority := by
  have howner := hauthorized.owner
  unfold LendingCall.authorize LendingRelay.authorize
  rw [forM_require_of_passes hauthorized.addresses, pure_bind]
  cases hrole : call.ownerRole? with
  | none =>
    rw [hrole] at howner
    rw [howner]
  | some role =>
    rw [hrole] at howner
    exact requireOwner_of_consents howner

/-- Without `LendingCall.Authorized` a call is refused, by an address check or by `requireOwner`. -/
theorem authorize_of_not_authorized {call : LendingCall} {seating : Seating}
    (hnone : ∀ authority, ¬call.Authorized seating authority) :
    Run.Refuses (call.authorize seating) := by
  unfold LendingCall.authorize LendingRelay.authorize
  by_cases haddresses : ∀ check ∈ call.addressChecks, check.Passes seating
  · rw [forM_require_of_passes haddresses, pure_bind]
    -- All addresses are right, so it is the owner that does not consent.
    cases hrole : call.ownerRole? with
    | none => exact absurd ⟨haddresses, by rw [hrole]⟩ (hnone none)
    | some role =>
      apply requireOwner_of_not_consents
      intro authority hconsents
      exact hnone authority ⟨haddresses, by rw [hrole]; exact hconsents⟩
  · exact (forM_require_of_not_passes haddresses).bind _

/-- `LendingCall.authorize` lets a call through or refuses it, and there is only one way of signing
it. -/
theorem authorized_or_refuses (call : LendingCall) (seating : Seating) :
    (∃ authority, call.Authorized seating authority ∧ call.authorize seating = pure authority) ∨
      (∀ authority, ¬call.Authorized seating authority) ∧ Run.Refuses (call.authorize seating) := by
  by_cases hauthorized : ∃ authority, call.Authorized seating authority
  · obtain ⟨authority, hauthorized⟩ := hauthorized
    exact .inl ⟨authority, hauthorized, authorize_of_authorized hauthorized⟩
  · have hnone : ∀ authority, ¬call.Authorized seating authority := by
      intro authority h
      exact hauthorized ⟨authority, h⟩
    exact .inr ⟨hnone, authorize_of_not_authorized hnone⟩

end LendingCall

end LendingRelay
