import LendingRelay.Proofs.Authorization

/-!
# The canonical bump

A list of seeds may have an address under many bumps. The search goes through all of them from the
largest down, so what it finds is the largest bump that works, and it finds nothing only if none of
them does. Lists are also looked at before the walk, and those that are turned away there have no
address under any bump, so the walk alone would come to the same. A supplied address is accepted for
one key and one bump at most.

* `search_eq_searchAmong`: the lists that are turned away have no address.
* `search_eq_exhausted_iff`, `search_eq_found_iff`: when something is found, and what.
* `search_eq_runtimeSearch`: the search of the runtime, which leaves out the last bump.
* `canonical_bump`: what is found, and what is accepted.
-/

namespace LendingRelay

variable {seeds : List Bytes} {program address : Pubkey} {bump : UInt8}

/-! ## Lists without an address -/

/-- Too many seeds, or a seed that is too long: `createProgramAddress?` refuses the list whatever
its hash is. -/
def Malformed (seeds : List Bytes) : Prop :=
  maxSeeds < seeds.length ∨ ∃ seed ∈ seeds, maxSeedLength < seed.length

instance (seeds : List Bytes) : Decidable (Malformed seeds) :=
  inferInstanceAs (Decidable (_ ∨ _))

/-- A list has no address if it is `Malformed`, or if its hash is a point of the curve. -/
theorem createProgramAddress?_eq_none_iff (seeds : List Bytes) (program : Pubkey) :
    createProgramAddress? seeds program = none ↔
      Malformed seeds ∨ Edwards25519.isPoint (sha256 (addressPreimage seeds program)) = true := by
  have hmalformed : (seeds.length > maxSeeds ∨
      seeds.any (fun seed => seed.length > maxSeedLength)) ↔ Malformed seeds := by
    simp [Malformed]
  unfold createProgramAddress?
  by_cases hlist : Malformed seeds
  · rw [if_pos (hmalformed.mpr hlist)]
    simp [hlist]
  · rw [if_neg (mt hmalformed.mp hlist)]
    simp [hlist]

/-- The bump is a seed as well, so a list has to leave room for it under `maxSeeds`; it is never too
long itself. -/
theorem malformed_append_bump (seeds : List Bytes) (bump : UInt8) :
    Malformed (seeds ++ [[bump]]) ↔
      maxSeeds ≤ seeds.length ∨ ∃ seed ∈ seeds, maxSeedLength < seed.length := by
  have hbump : ¬maxSeedLength < [bump].length := by simp [maxSeedLength]
  simp only [Malformed, List.length_append, List.length_singleton, List.mem_append,
    List.mem_singleton]
  refine or_congr Nat.lt_add_one_iff ⟨?_, ?_⟩
  · rintro ⟨seed, hseed | rfl, hlong⟩
    · exact ⟨seed, hseed, hlong⟩
    · exact absurd hlong hbump
  · rintro ⟨seed, hseed, hlong⟩
    exact ⟨seed, .inl hseed, hlong⟩

/-! ## The walk -/

/-- **Nothing is found** exactly when no candidate works. Induction on the candidates. -/
theorem searchAmong_eq_exhausted_iff (candidates : List UInt8) (seeds : List Bytes)
    (program : Pubkey) :
    searchAmong candidates seeds program = .exhausted ↔
      ∀ bump ∈ candidates, createProgramAddress? (seeds ++ [[bump]]) program = none := by
  induction candidates with
  | nil => simp [searchAmong]
  | cons candidate rest ih =>
    unfold searchAmong
    cases hcreate : createProgramAddress? (seeds ++ [[candidate]]) program with
    | some found => simp [hcreate]
    | none => simp [hcreate, ih]

/-- **The first candidate that works is found.** Where the candidates come in descending order, that
is the largest one. Induction on the candidates, with what comes before a candidate ruled out by the
order. -/
theorem searchAmong_eq_found_iff {candidates : List UInt8}
    (hdescending : candidates.Pairwise fun first second => second < first) :
    searchAmong candidates seeds program = .found address bump ↔
      bump ∈ candidates ∧ createProgramAddress? (seeds ++ [[bump]]) program = some address ∧
        ∀ larger ∈ candidates, bump < larger →
          createProgramAddress? (seeds ++ [[larger]]) program = none := by
  induction candidates with
  | nil => simp [searchAmong]
  | cons candidate rest ih =>
    rw [List.pairwise_cons] at hdescending
    have hbehind : ∀ bump ∈ rest, bump < candidate := hdescending.1
    unfold searchAmong
    cases hcreate : createProgramAddress? (seeds ++ [[candidate]]) program with
    | none =>
      -- A candidate that does not work is neither the answer nor in the way of one.
      have hother : createProgramAddress? (seeds ++ [[bump]]) program = some address →
          bump ≠ candidate := by
        rintro hbump rfl
        rw [hcreate] at hbump
        cases hbump
      simp only [ih hdescending.2, List.mem_cons, forall_eq_or_imp, hcreate, implies_true, true_and]
      refine and_congr_left fun hbump => ?_
      simp [hother hbump.1]
    | some found =>
      -- All other candidates are smaller, and this one is in the way of them.
      simp only [Derivation.found.injEq, List.mem_cons, forall_eq_or_imp, hcreate, reduceCtorEq,
        imp_false, UInt8.not_lt]
      refine ⟨?_, ?_⟩
      · rintro ⟨rfl, rfl⟩
        refine ⟨.inl rfl, hcreate, UInt8.le_refl _, fun larger hlarger hlt => ?_⟩
        exact absurd (UInt8.lt_trans (hbehind larger hlarger) hlt) (UInt8.lt_irrefl _)
      · rintro ⟨rfl | hrest, hbump, hle, -⟩
        · rw [hcreate] at hbump
          exact ⟨Option.some.inj hbump, rfl⟩
        · exact absurd (hbehind bump hrest) (UInt8.not_lt.mpr hle)

/-- Candidates behind the one that is found do not matter. The search of the runtime stops one
candidate earlier than `search`, which this makes up for. -/
theorem searchAmong_append {front : List UInt8} (back : List UInt8)
    (hfound : searchAmong front seeds program ≠ .exhausted) :
    searchAmong (front ++ back) seeds program = searchAmong front seeds program := by
  induction front with
  | nil => exact absurd rfl hfound
  | cons candidate rest ih =>
    unfold searchAmong at hfound ⊢
    rw [List.cons_append]
    cases hcreate : createProgramAddress? (seeds ++ [[candidate]]) program with
    | some found => simp [hcreate]
    | none =>
      rw [hcreate] at hfound
      simp [hcreate, ih hfound]

/-! ## The search -/

theorem mem_bumps (bump : UInt8) : bump ∈ bumps := by
  have hlt := bump.toNat_lt
  simp only [bumps, List.mem_map, List.mem_reverse, List.mem_range]
  exact ⟨bump.toNat, by omega, UInt8.ofNat_toNat⟩

theorem bumps_descending : bumps.Pairwise fun first second => second < first := by
  rw [bumps, List.pairwise_map, List.pairwise_reverse]
  refine List.pairwise_lt_range.imp_of_mem fun hfirst hsecond hlt => ?_
  rw [List.mem_range] at hfirst hsecond
  rw [UInt8.lt_iff_toNat_lt, UInt8.toNat_ofNat', UInt8.toNat_ofNat']
  omega

/-- **The lists that are turned away have no address** under any bump, so `search` is the walk over
all `bumps`. -/
theorem search_eq_searchAmong (seeds : List Bytes) (program : Pubkey) :
    search seeds program = searchAmong bumps seeds program := by
  unfold search
  split
  · next hguard =>
    -- A list that is too long without the bump, or has a seed that is, is malformed with every
    -- bump.
    symm
    rw [searchAmong_eq_exhausted_iff]
    intro bump _
    rw [createProgramAddress?_eq_none_iff, malformed_append_bump]
    left
    simpa using hguard
  · rfl

theorem search_eq_exhausted_iff (seeds : List Bytes) (program : Pubkey) :
    search seeds program = .exhausted ↔
      ∀ bump, createProgramAddress? (seeds ++ [[bump]]) program = none := by
  rw [search_eq_searchAmong, searchAmong_eq_exhausted_iff]
  simp [mem_bumps]

/-- **The largest bump that works is found.** `bumps` are all of them, in descending order. -/
theorem search_eq_found_iff :
    search seeds program = .found address bump ↔
      createProgramAddress? (seeds ++ [[bump]]) program = some address ∧
        ∀ larger, bump < larger → createProgramAddress? (seeds ++ [[larger]]) program = none := by
  rw [search_eq_searchAmong, searchAmong_eq_found_iff bumps_descending]
  simp [mem_bumps]

/-! ## The search of the runtime

The runtime has a search of its own. It counts down from 255, gives up at a malformed list, and
stops before it gets to zero. -/

/-- The search of the runtime from a bump down to one. It gives up at a list that is `Malformed`. -/
def runtimeSearch (seeds : List Bytes) (program : Pubkey) : (highest : Nat) → Derivation
  | 0 => .exhausted
  | lower + 1 =>
    let bump := UInt8.ofNat (lower + 1)
    match createProgramAddress? (seeds ++ [[bump]]) program with
    | some address => .found address bump
    | none =>
      if Malformed (seeds ++ [[bump]]) then .exhausted else runtimeSearch seeds program lower

/-- The bumps from one down, those that `runtimeSearch` tries. -/
def bumpsFrom : (highest : Nat) → List UInt8
  | 0 => []
  | lower + 1 => UInt8.ofNat (lower + 1) :: bumpsFrom lower

theorem bumps_eq_append : bumps = bumpsFrom 255 ++ [0] := by
  decide +kernel

theorem runtimeSearch_eq (seeds : List Bytes) (program : Pubkey) (highest : Nat) :
    runtimeSearch seeds program highest = searchAmong (bumpsFrom highest) seeds program := by
  induction highest with
  | zero => rfl
  | succ lower ih =>
    unfold runtimeSearch bumpsFrom searchAmong
    dsimp only
    cases hcreate : createProgramAddress? (seeds ++ [[UInt8.ofNat (lower + 1)]]) program with
    | some found => rfl
    | none =>
      dsimp only
      split
      · next hmalformed =>
        -- A list that is malformed under one bump is so under every other one.
        symm
        rw [searchAmong_eq_exhausted_iff]
        intro bump _
        rw [createProgramAddress?_eq_none_iff, malformed_append_bump]
        exact .inl ((malformed_append_bump ..).mp hmalformed)
      · exact ih

/-- **The search of the runtime** comes to the same when a bump other than zero works. Such a bump
is among `bumpsFrom 255`, so something is found there, and by `searchAmong_append` the last
candidate of `search` does not matter. -/
theorem search_eq_runtimeSearch (hpos : 1 ≤ bump)
    (hworks : createProgramAddress? (seeds ++ [[bump]]) program ≠ none) :
    search seeds program = runtimeSearch seeds program 255 := by
  have hmem : bump ∈ bumpsFrom 255 := by
    have hall := mem_bumps bump
    rw [bumps_eq_append, List.mem_append, List.mem_singleton] at hall
    refine hall.resolve_right ?_
    rintro rfl
    exact absurd hpos (by decide)
  have hfound : searchAmong (bumpsFrom 255) seeds program ≠ .exhausted := by
    intro hexhausted
    exact hworks ((searchAmong_eq_exhausted_iff ..).mp hexhausted bump hmem)
  rw [search_eq_searchAmong, bumps_eq_append, searchAmong_append [0] hfound, runtimeSearch_eq]

/-! ## What is found and what is accepted -/

/-- What `search` finds for a list of seeds. -/
structure CanonicalSearch (seeds : List Bytes) (program : Pubkey) : Prop where
  found_iff : ∀ address bump, search seeds program = .found address bump ↔
    createProgramAddress? (seeds ++ [[bump]]) program = some address ∧
      ∀ larger, bump < larger → createProgramAddress? (seeds ++ [[larger]]) program = none
  exhausted_iff : search seeds program = .exhausted ↔
    ∀ bump, createProgramAddress? (seeds ++ [[bump]]) program = none
  /-- Without the look at the list beforehand the walk would come to the same. -/
  unguarded : search seeds program = searchAmong bumps seeds program
  runtime : ∀ bump, 1 ≤ bump → createProgramAddress? (seeds ++ [[bump]]) program ≠ none →
    search seeds program = runtimeSearch seeds program 255

/-- What is accepted as the address of an account: what `search` finds for the seeds of its kind,
and nothing else. -/
structure CanonicalAddress (kind : AddressKind Pubkey) (program : Pubkey) : Prop where
  /-- Every kind is derived by the search of `CanonicalSearch`, for its own seeds. -/
  derives : kind.derive program = search kind.seeds program
  ok_iff : ∀ supplied bump canonical, kind.verify program supplied bump = .ok canonical ↔
    kind.derive program = .found supplied canonical ∧ ∀ given ∈ bump, given = canonical
  exhausted_iff : ∀ supplied bump,
    (∃ fault, kind.verify program supplied bump = .error fault ∧
        fault.error = .seedDerivationExhausted) ↔
      kind.derive program = .exhausted
  mismatch_iff : ∀ supplied bump,
    (∃ fault, kind.verify program supplied bump = .error fault ∧
        fault.error = .accountMismatch) ↔
      kind.derive program ≠ .exhausted ∧
        ∀ canonical, kind.verify program supplied bump ≠ .ok canonical
  /-- No other key passes, and no other bump. -/
  unique : ∀ supplied supplied' bump bump' canonical canonical',
    kind.verify program supplied bump = .ok canonical →
      kind.verify program supplied' bump' = .ok canonical' →
        supplied = supplied' ∧ canonical = canonical' ∧
          ∀ given ∈ bump, ∀ given' ∈ bump', given = given'
  /-- In a run the answer is the same, and a fault is raised as the error of its kind. -/
  run : ∀ supplied bump script, (requireAddress kind program supplied bump script).result =
    (kind.verify program supplied bump).mapError fun fault => .thrown fault.error

theorem canonicalSearch (seeds : List Bytes) (program : Pubkey) :
    CanonicalSearch seeds program where
  found_iff _ _ := search_eq_found_iff
  exhausted_iff := search_eq_exhausted_iff seeds program
  unguarded := search_eq_searchAmong seeds program
  runtime _ hpos hworks := search_eq_runtimeSearch hpos hworks

namespace AddressKind

/-- The two errors of `AddressKind.verify` are told apart by the search alone. -/
theorem error_of_verify {kind : AddressKind Pubkey} {program supplied : Pubkey}
    {bump : Option UInt8} {fault : AddressFault}
    (hfault : kind.verify program supplied bump = .error fault) :
    fault.error = if kind.derive program = .exhausted then .seedDerivationExhausted
      else .accountMismatch := by
  unfold verify at hfault
  cases hderive : kind.derive program with
  | exhausted =>
    rw [hderive] at hfault
    cases hfault
    simp [AddressFault.error]
  | found expected canonical =>
    rw [hderive] at hfault
    simp only at hfault
    -- The search found something, so the address or the bump is another one.
    split at hfault
    · cases hfault
      simp [AddressFault.error]
    · cases bump with
      | none => simp at hfault
      | some given =>
        simp only at hfault
        split at hfault
        · simp at hfault
        · cases hfault
          simp [AddressFault.error]

/-- `requireAddress` logs what is wrong with an address before it raises the error, and ends as
`AddressKind.verify` does. -/
theorem result_requireAddress (kind : AddressKind Pubkey) (program supplied : Pubkey)
    (bump : Option UInt8) (script : Script) :
    (requireAddress kind program supplied bump script).result =
      (kind.verify program supplied bump).mapError fun fault => .thrown fault.error := by
  unfold requireAddress
  cases kind.verify program supplied bump with
  | ok canonical => rfl
  | error fault => cases fault <;> rfl

theorem canonicalAddress (kind : AddressKind Pubkey) (program : Pubkey) :
    CanonicalAddress kind program where
  derives := rfl
  ok_iff := kind.verify_eq_ok_iff program
  exhausted_iff supplied bump := by
    refine ⟨?_, fun hexhausted => ?_⟩
    · rintro ⟨fault, hfault, herror⟩
      cases hderive : kind.derive program with
      | exhausted => rfl
      | found expected canonical => simp [error_of_verify hfault, hderive] at herror
    · refine ⟨.exhausted, ?_, rfl⟩
      unfold verify
      rw [hexhausted]
  mismatch_iff supplied bump := by
    refine ⟨?_, ?_⟩
    · rintro ⟨fault, hfault, herror⟩
      refine ⟨fun hexhausted => ?_, fun canonical hok => ?_⟩
      · rw [error_of_verify hfault, if_pos hexhausted] at herror
        cases herror
      · rw [hfault] at hok
        cases hok
    · rintro ⟨hfound, hnone⟩
      cases hverify : kind.verify program supplied bump with
      | ok canonical => exact absurd hverify (hnone canonical)
      | error fault => exact ⟨fault, rfl, by rw [error_of_verify hverify, if_neg hfound]⟩
  unique supplied supplied' bump bump' canonical canonical' hok hok' := by
    obtain ⟨hderive, hbump⟩ := (kind.verify_eq_ok_iff ..).mp hok
    obtain ⟨hderive', hbump'⟩ := (kind.verify_eq_ok_iff ..).mp hok'
    rw [hderive] at hderive'
    cases hderive'
    refine ⟨rfl, rfl, fun given hgiven given' hgiven' => ?_⟩
    rw [hbump given hgiven, hbump' given' hgiven']
  run := kind.result_requireAddress program

end AddressKind

/-- **Canonical bumps.** A search finds the largest bump that works, and nothing only if none does.
An address is accepted exactly when the search finds it, with the bump of the search if one came
along. The halves are `canonicalSearch` and `AddressKind.canonicalAddress`. -/
theorem canonical_bump :
    (∀ seeds program, CanonicalSearch seeds program) ∧
      ∀ kind program, CanonicalAddress kind program :=
  ⟨canonicalSearch, AddressKind.canonicalAddress⟩

/-- The signing authority of the main market has no address under the first bump that is tried, and
one under the second. A collateral account, whose seeds start with a label and which is derived from
an obligation, has none under the first bump either, and no bump but its own is accepted for it. -/
theorem canonical_bump_mainMarket :
    let seeds := [mainMarket.bytes]
    let address := Pubkey.ofNat 0x4a0746a98f83421ffac6cca9d8e0cebda8b854a5e3fc182c0d3437d96f74ea2e
    let kind : AddressKind Pubkey := .collateral
      (.ofNat 0x3af363ddd2e043af8339e770096c813e498958346b14bd4e075cd2f1d990ef4d)
      (.ofNat 0x4797a774f45901e3c88780844f033cf85df0358ffaf7e6cbbd6aada39376f5a1) (.ofNat 10)
    let account := Pubkey.ofNat 0x70a73ac0e24fb2e814317b1d1d05b503d8384eef068cc161e553d8eb5aa04757
    (createProgramAddress? (seeds ++ [[255]]) lendingProgram = none ∧
        search seeds lendingProgram = .found address 254 ∧
        runtimeSearch seeds lendingProgram 255 = .found address 254 ∧
        (AddressKind.marketAuthority mainMarket).verify lendingProgram address (some 254) =
          .ok 254 ∧
        ∀ supplied canonical,
          (AddressKind.marketAuthority mainMarket).verify lendingProgram supplied none =
            .ok canonical → supplied = address) ∧
      createProgramAddress? (kind.seeds ++ [[255]]) lendingProgram = none ∧
      kind.derive lendingProgram = .found account 254 ∧
      ∀ bump, kind.verify lendingProgram account (some bump) = .ok 254 ↔ bump = 254 := by
  intro seeds address kind account
  obtain ⟨hcanonical, haddress⟩ := canonical_bump
  refine ⟨?_, ?_⟩
  · have hsearch : search seeds lendingProgram = .found address 254 := by decide +kernel
    obtain ⟨hworks, hlarger⟩ :=
      ((hcanonical seeds lendingProgram).found_iff address 254).mp hsearch
    have hruntime := (hcanonical seeds lendingProgram).runtime 254 (by decide) (by simp [hworks])
    have hverify := ((haddress (.marketAuthority mainMarket) lendingProgram).ok_iff address
      (some 254) 254).mpr ⟨hsearch, by simp⟩
    refine ⟨hlarger 255 (by decide), hsearch, hruntime ▸ hsearch, hverify, ?_⟩
    -- Whatever else is accepted is this address, by uniqueness.
    intro supplied canonical hsupplied
    exact ((haddress _ _).unique _ _ _ _ _ _ hsupplied hverify).1
  · have hsearch : search kind.seeds lendingProgram = .found account 254 := by decide +kernel
    obtain ⟨-, hlarger⟩ := ((hcanonical kind.seeds lendingProgram).found_iff account 254).mp hsearch
    have hderive : kind.derive lendingProgram = .found account 254 :=
      (haddress kind lendingProgram).derives.trans hsearch
    refine ⟨hlarger 255 (by decide), hderive, fun bump => ?_⟩
    rw [(haddress kind lendingProgram).ok_iff]
    simp [hderive]

end LendingRelay
