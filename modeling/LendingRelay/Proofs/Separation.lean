import LendingRelay.Proofs.Authorization

/-!
# Derived addresses are kept apart

What is hashed for an address has no separators: label, keys, bump, program and marker stand right
behind one another, and a key may well start with the bytes of another kind's label. What keeps
derivations apart all the same is their lengths. No two kinds have seeds of the same total length,
and within a kind every seed has a length of its own, so the hashed bytes can be cut back into the
seeds in one way only.

* `AddressPurpose.preimage_inj`: the hashed bytes determine the purpose, the bump and the program.
* `AddressPurpose.Derived.sha256_preimage`: an address is the hash of its preimage, in whatever way
  it came to be derived.
* `AddressPurpose.derivations_separated`: one address for two derivations is a collision of the
  hash.
-/

namespace LendingRelay

/-- What an address is derived for: an account of the lending program, or the relay's authority of a
market. -/
inductive AddressPurpose
  | account (kind : AddressKind Pubkey)
  | relayAuthority (market : Pubkey)
  deriving DecidableEq

namespace AddressPurpose

/-- The seeds without the bump: those of `AddressKind.seeds`, or those
of `RelayAuthority.derive`. -/
def seeds : AddressPurpose → List Bytes
  | account kind => kind.seeds
  | relayAuthority market => [RelayAuthority.label, market.bytes]

/-- What is hashed for an address: the seeds, the bump, the program and the marker.
`addressPreimage_seeds` shows that `addressPreimage` is this for the seeds of a purpose. -/
def preimage (purpose : AddressPurpose) (bump : UInt8) (program : Pubkey) : Bytes :=
  purpose.seeds.flatten ++ [bump] ++ program.bytes ++ Bytes.ofText "ProgramDerivedAddress"

theorem addressPreimage_seeds (purpose : AddressPurpose) (bump : UInt8) (program : Pubkey) :
    addressPreimage (purpose.seeds ++ [[bump]]) program = purpose.preimage bump program := by
  simp [addressPreimage, preimage]

/-! ## Lengths -/

/-- The lengths of the seeds of each kind, with those of the relay's authority last. -/
def seedLengths : List (List Nat) :=
  [[32], [10, 32, 32], [8, 32, 32], [10, 32, 32, 32], [4, 32, 32, 32], [15, 32]]

/-- The total length tells the kinds apart. All of `seedLengths` are compared with one another. -/
theorem eq_of_total_eq : ∀ first ∈ seedLengths, ∀ second ∈ seedLengths,
    first.foldr (· + ·) 0 = second.foldr (· + ·) 0 → first = second := by
  decide

theorem map_length_seeds_mem (purpose : AddressPurpose) :
    purpose.seeds.map List.length ∈ seedLengths := by
  have hobligation : (Bytes.ofText "obligation").length = 10 := by decide +kernel
  have hdeposits : (Bytes.ofText "deposits").length = 8 := by decide +kernel
  have hcollateral : (Bytes.ofText "collateral").length = 10 := by decide +kernel
  have hloan : (Bytes.ofText "loan").length = 4 := by decide +kernel
  have hrelay : RelayAuthority.label.length = 15 := by decide +kernel
  -- With the lengths of the labels each kind is an entry of the table; keys always have 32 bytes.
  cases purpose with
  | account kind =>
    cases kind <;>
      simp [seeds, AddressKind.seeds, seedLengths, Pubkey.length_bytes, hobligation, hdeposits,
        hcollateral, hloan]
  | relayAuthority market => simp [seeds, seedLengths, Pubkey.length_bytes, hrelay]

/-- Seeds of the same total length are cut at the same places, by `eq_of_total_eq`. -/
theorem map_length_seeds_eq {first second : AddressPurpose}
    (hlength : first.seeds.flatten.length = second.seeds.flatten.length) :
    first.seeds.map List.length = second.seeds.map List.length := by
  rw [List.length_flatten, List.length_flatten] at hlength
  exact eq_of_total_eq _ first.map_length_seeds_mem _ second.map_length_seeds_mem hlength

/-! ## From the hashed bytes back to the purpose -/

end AddressPurpose

/-- The list of seeds determines the kind and the keys in their roles. Kinds with equally many seeds
differ in their labels, and `Pubkey.bytes` is injective. -/
theorem AddressKind.seeds_inj {kind kind' : AddressKind Pubkey}
    (hseeds : kind.seeds = kind'.seeds) : kind = kind' := by
  have hobligation : Bytes.ofText "obligation" ≠ Bytes.ofText "deposits" := by decide +kernel
  have hcollateral : Bytes.ofText "collateral" ≠ Bytes.ofText "loan" := by decide +kernel
  have hkey : ∀ k l : Pubkey, k.bytes = l.bytes ↔ k = l := fun _ _ => Pubkey.ext_iff.symm
  -- Most pairs of kinds differ in the number of seeds.
  cases kind <;> cases kind' <;>
    simp_all [seeds, hobligation.symm, hcollateral.symm]

namespace AddressPurpose

theorem seeds_inj {first second : AddressPurpose} (hseeds : first.seeds = second.seeds) :
    first = second := by
  cases first with
  | account kind =>
    cases second with
    | account kind' => rw [AddressKind.seeds_inj hseeds]
    | relayAuthority market' => cases kind <;> simp [seeds, AddressKind.seeds] at hseeds
  | relayAuthority market =>
    cases second with
    | account kind' => cases kind' <;> simp [seeds, AddressKind.seeds] at hseeds
    | relayAuthority market' =>
      obtain ⟨-, hrest⟩ := List.cons.inj hseeds
      rw [Pubkey.ext (List.singleton_inj.mp hrest)]

theorem flatten_seeds_inj {first second : AddressPurpose}
    (hflatten : first.seeds.flatten = second.seeds.flatten) : first = second := by
  apply seeds_inj
  rw [List.eq_iff_flatten_eq]
  exact ⟨hflatten, map_length_seeds_eq (congrArg List.length hflatten)⟩

/-- **The preimage determines the derivation.** Everything behind the seeds has a fixed length, so
equal preimages have equal seeds, and these have one purpose only, by `flatten_seeds_inj`. -/
theorem preimage_inj {first second : AddressPurpose} {bump bump' : UInt8}
    {program program' : Pubkey}
    (hpreimage : first.preimage bump program = second.preimage bump' program') :
    first = second ∧ bump = bump' ∧ program = program' := by
  unfold preimage at hpreimage
  -- Marker, program and bump are cut off the end in turn.
  obtain ⟨hfront, -⟩ := List.append_inj' hpreimage rfl
  obtain ⟨hseeds, hprogram⟩ := List.append_inj' hfront
    (by rw [program.length_bytes, program'.length_bytes])
  obtain ⟨hflatten, hbump⟩ := List.append_inj' hseeds rfl
  exact ⟨flatten_seeds_inj hflatten, List.singleton_inj.mp hbump, Pubkey.ext hprogram⟩

/-! ## One address for two derivations -/

/-- The ways in which an address comes to be derived under a program with a bump. Each of them ends
in `createProgramAddress?`, which is `Derived.createProgramAddress?_eq`. -/
inductive Derived (program address : Pubkey) (bump : UInt8) : AddressPurpose → Prop
  /-- The seeds with this bump have the address. -/
  | created {purpose : AddressPurpose}
      (hcreate : createProgramAddress? (purpose.seeds ++ [[bump]]) program = some address) :
      Derived program address bump purpose
  /-- The search over the bumps finds the address. -/
  | searched {kind : AddressKind Pubkey} (hsearch : kind.derive program = .found address bump) :
      Derived program address bump (account kind)
  /-- The address is supplied, with or without a bump, and accepted. -/
  | accepted {kind : AddressKind Pubkey} {given : Option UInt8}
      (hverify : kind.verify program address given = .ok bump) :
      Derived program address bump (account kind)
  /-- The address is the relay's authority of a market. -/
  | authority {market : Pubkey} (hprogram : program = relayProgram)
      (hderive : RelayAuthority.derive market = .ok { market, address, bump }) :
      Derived program address bump (relayAuthority market)

/-- An address that seeds have is the hash of their `addressPreimage`. -/
theorem bytes_of_createProgramAddress? {seeds : List Bytes} {program address : Pubkey}
    (hcreate : createProgramAddress? seeds program = some address) :
    address.bytes = sha256 (addressPreimage seeds program) := by
  unfold createProgramAddress? at hcreate
  split at hcreate
  · cases hcreate
  · dsimp only at hcreate
    split at hcreate
    · cases hcreate
    · cases hcreate
      rfl

/-- However an address is derived, `createProgramAddress?` makes it of the seeds with the bump. -/
theorem Derived.createProgramAddress?_eq {program address : Pubkey} {bump : UInt8}
    {purpose : AddressPurpose} (hderived : purpose.Derived program address bump) :
    createProgramAddress? (purpose.seeds ++ [[bump]]) program = some address := by
  cases hderived with
  | created hcreate => exact hcreate
  | searched hsearch => exact createProgramAddress?_of_search hsearch
  | accepted hverify =>
    have hsearch := ((AddressKind.verify_eq_ok_iff ..).mp hverify).1
    exact createProgramAddress?_of_search hsearch
  | authority hprogram hderive =>
    subst hprogram
    exact (RelayAuthority.of_derive hderive).2

theorem Derived.sha256_preimage {program address : Pubkey} {bump : UInt8}
    {purpose : AddressPurpose} (hderived : purpose.Derived program address bump) :
    sha256 (purpose.preimage bump program) = address.bytes := by
  rw [bytes_of_createProgramAddress? hderived.createProgramAddress?_eq, addressPreimage_seeds]

end AddressPurpose

/-- Two byte strings with the same hash. -/
structure Collision (first second : Bytes) : Prop where
  ne : first ≠ second
  sha256_eq : sha256 first = sha256 second

namespace AddressPurpose

/-- **Domain separation.** Equal preimages belong to one derivation: the same kind with the same
keys in the same roles, the same bump and the same program. So when one address is derived for two
different derivations, in whatever way, their preimages are a `Collision` of the hash. The first
half is `preimage_inj`, the second `Derived.sha256_preimage` on both sides. -/
theorem derivations_separated (first second : AddressPurpose) (bump bump' : UInt8)
    (program program' : Pubkey) :
    (first.preimage bump program = second.preimage bump' program' ↔
        first = second ∧ bump = bump' ∧ program = program') ∧
      ∀ address, first.Derived program address bump → second.Derived program' address bump' →
        (first = second ∧ bump = bump' ∧ program = program') ∨
          Collision (first.preimage bump program) (second.preimage bump' program') := by
  refine ⟨⟨preimage_inj, ?_⟩, ?_⟩
  · rintro ⟨rfl, rfl, rfl⟩
    rfl
  · intro address hfirst hsecond
    by_cases hpreimage : first.preimage bump program = second.preimage bump' program'
    · exact .inl (preimage_inj hpreimage)
    · exact .inr ⟨hpreimage, hfirst.sha256_preimage.trans hsecond.sha256_preimage.symm⟩

/-- A deposit account with its keys swapped has another preimage, and the signing authority of the
main market, searched for and then supplied with its bump, is one derivation. -/
theorem separated_marketAuthority :
    let authority : AddressKind Pubkey := .marketAuthority mainMarket
    let address := Pubkey.ofNat 0x4a0746a98f83421ffac6cca9d8e0cebda8b854a5e3fc182c0d3437d96f74ea2e
    let hashed := (account authority).preimage 254 lendingProgram
    (account (.deposit mainMarket .tokenProgram)).preimage 254 lendingProgram ≠
        (account (.deposit .tokenProgram mainMarket)).preimage 254 lendingProgram ∧
      authority.derive lendingProgram = .found address 254 ∧
      authority.verify lendingProgram address (some 254) = .ok 254 ∧
      ((account authority = account authority ∧ (254 : UInt8) = 254 ∧
          lendingProgram = lendingProgram) ∨ Collision hashed hashed) := by
  intro authority address hashed
  have hkeys : account (.deposit mainMarket .tokenProgram) ≠
      account (.deposit .tokenProgram mainMarket) := by decide +kernel
  have hsearch : authority.derive lendingProgram = .found address 254 := by decide +kernel
  have hverify : authority.verify lendingProgram address (some 254) = .ok 254 :=
    (AddressKind.verify_eq_ok_iff ..).mpr ⟨hsearch, by simp⟩
  refine ⟨fun hswapped => ?_, hsearch, hverify, ?_⟩
  · exact hkeys ((derivations_separated _ _ 254 254 lendingProgram lendingProgram).1.mp hswapped).1
  · exact (derivations_separated _ _ 254 254 lendingProgram lendingProgram).2 address
      (.searched hsearch) (.accepted hverify)

end AddressPurpose

end LendingRelay
