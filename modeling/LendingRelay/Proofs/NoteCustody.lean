import LendingRelay.Proofs.Composition

/-!
# Movements with and without a bump

A deposit comes in two forms, and so does a withdrawal. With a bump the notes lie in the depositor's
own deposit account, and the relay makes sure that they do; without one they lie wherever the caller
says. Each form has its own checks, names and accounts. Here the two are run side by side. The form
with a bump asks for exactly one thing more, that the notes are the depositor's own. Past that, the
two make the same calls, up to the name, the bump and the account that a withdrawal needs for it.

* `Custody.OwnNotes`: what the form with a bump asks for.
* `Custody.admits_withBump_iff`, `Custody.admitsAccrued_withBump_iff`: it asks for nothing else.
* `Custody.sameMovement`: the two calls, compared.
* `Relay.withBump_refines`: the two runs, alone and behind an accrual.
-/

namespace LendingRelay

namespace Custody

/-- The movement of notes that lie in the depositor's own deposit account: `deposit` and `withdraw`
with a bump. -/
def withBump (direction : Direction) (bump : UInt8) (amount : Amount) : Custody :=
  { direction, bump := some bump, amount }

/-- The movement of notes that lie in an account of the caller's choice, with no `Custody.bump`. -/
def withoutBump (direction : Direction) (amount : Amount) : Custody :=
  { direction, bump := none, amount }

/-- The notes lie in the deposit account that `AddressKind.derive` finds for the reserve and the
depositor, with the bump of that search. Among the accounts of a movement the reserve comes third,
the depositor sixth and the notes seventh. -/
def OwnNotes (bump : UInt8) (accounts : List Account) : Prop :=
  ∃ reserve depositor notes,
    accounts[2]?.map Account.key = some reserve ∧
      accounts[5]?.map Account.key = some depositor ∧
      accounts[6]?.map Account.key = some notes ∧
      (AddressKind.deposit reserve depositor).derive lendingProgram = .found notes bump

/-- `OwnNotes` has one bump, since the search has one answer. -/
theorem OwnNotes.bump_eq {bump bump' : UInt8} {accounts : List Account}
    (hown : OwnNotes bump accounts) (hown' : OwnNotes bump' accounts) : bump = bump' := by
  obtain ⟨reserve, depositor, notes, hreserve, hdepositor, -, hderive⟩ := hown
  obtain ⟨reserve', depositor', notes', hreserve', hdepositor', -, hderive'⟩ := hown'
  cases hreserve.symm.trans hreserve'
  cases hdepositor.symm.trans hdepositor'
  cases hderive.symm.trans hderive'
  rfl

variable {direction : Direction} {bump : UInt8} {amount : Amount} {accounts : List Account}

/-! ## What is checked -/

/-- On fitting accounts, `AddressCheck.deposit` passes exactly for `OwnNotes`: `LendingCall.key_at`
finds its three keys at their places. -/
theorem passes_deposit_iff {move : Custody} (hfits : (LendingCall.custody move).Fits accounts) :
    (AddressCheck.deposit .depositor (some bump)).Passes
        ((LendingCall.custody move).seats accounts) ↔
      OwnNotes bump accounts := by
  -- The check reads parts and `OwnNotes` reads places, so the places are named first.
  have hreserve := LendingCall.key_at hfits 2 (.written .reserve) rfl
  have hdepositor := LendingCall.key_at hfits 5 (.readOnly .depositor) rfl
  have hnotes := LendingCall.key_at hfits 6 (.written .depositAccount) rfl
  refine ⟨?_, ?_⟩
  · rintro ⟨canonical, hderive, hgiven⟩
    obtain rfl : bump = canonical := hgiven bump rfl
    exact ⟨_, _, _, hreserve, hdepositor, hnotes, hderive⟩
  · rintro ⟨reserve, depositor, notes, hreserve', hdepositor', hnotes', hderive⟩
    cases hreserve.symm.trans hreserve'
    cases hdepositor.symm.trans hdepositor'
    cases hnotes.symm.trans hnotes'
    refine ⟨bump, hderive, fun given hgiven => ?_⟩
    exact (Option.some.inj hgiven).symm

theorem addressChecks_withBump :
    (LendingCall.custody (withBump direction bump amount)).addressChecks =
      [.marketAuthority, .deposit .depositor (some bump)] := rfl

theorem addressChecks_withoutBump :
    (LendingCall.custody (withoutBump direction amount)).addressChecks = [.marketAuthority] := rfl

/-- **One more check, and no other.** With a bump a movement is admitted exactly when it is admitted
without one and `OwnNotes` holds. Both are then signed alike. -/
theorem admits_withBump_iff {authority : Option RelayAuthority} :
    (LendingCall.custody (withBump direction bump amount)).Admits accounts authority ↔
      (LendingCall.custody (withoutBump direction amount)).Admits accounts authority ∧
        OwnNotes bump accounts := by
  -- Both forms declare the same accounts, so they are seated alike.
  refine ⟨fun hadmits => ?_, ?_⟩
  · have haddresses := hadmits.authorized.addresses
    rw [addressChecks_withBump, List.forall_mem_cons, List.forall_mem_singleton] at haddresses
    obtain ⟨hmarket, hdeposit⟩ := haddresses
    have hown := (passes_deposit_iff hadmits.fits).mp hdeposit
    refine ⟨⟨hadmits.fits, ?_, hadmits.authorized.owner⟩, hown⟩
    rw [addressChecks_withoutBump, List.forall_mem_singleton]
    exact hmarket
  · rintro ⟨hadmits, hown⟩
    have hmarket := hadmits.authorized.addresses
    rw [addressChecks_withoutBump, List.forall_mem_singleton] at hmarket
    have hdeposit := (passes_deposit_iff hadmits.fits).mpr hown
    refine ⟨hadmits.fits, ?_, hadmits.authorized.owner⟩
    rw [addressChecks_withBump, List.forall_mem_cons, List.forall_mem_singleton]
    exact ⟨hmarket, hdeposit⟩

theorem admitsAccrued_withBump_iff {authority : Option RelayAuthority} :
    (withBump direction bump amount).AdmitsAccrued accounts authority ↔
      (withoutBump direction amount).AdmitsAccrued accounts authority ∧
        OwnNotes bump (ownAccounts accounts) := by
  refine ⟨fun hadmits => ?_, ?_⟩
  · obtain ⟨haction, hown⟩ := admits_withBump_iff.mp hadmits.action
    exact ⟨⟨hadmits.accrual, haction, hadmits.market, hadmits.reserve⟩, hown⟩
  · rintro ⟨hadmits, hown⟩
    have haction := admits_withBump_iff.mpr ⟨hadmits.action, hown⟩
    exact ⟨hadmits.accrual, haction, hadmits.market, hadmits.reserve⟩

/-- The two forms are announced under two operations, by `Custody.operation` alone and by
`Custody.accruedOperation` behind an accrual. -/
theorem operation_withBump_ne :
    (withBump direction bump amount).operation ≠ (withoutBump direction amount).operation ∧
      (withBump direction bump amount).accruedOperation ≠
        (withoutBump direction amount).accruedOperation := by
  cases direction <;> simp [withBump, withoutBump, operation, accruedOperation]

end Custody

/-! ## What is called -/

/-- The accounts that a movement names with a bump, against those that it names without. They are
the same for `Direction.deposit`. A withdrawal with a bump names the lending program as well,
read-only, between the account withdrawn to, which is the eighth supplied one, and the token
program. -/
def SameAccounts (direction : Direction) (supplied : List Account)
    (bumped plain : List AccountMeta) : Prop :=
  match direction with
  | .deposit => bumped = plain
  | .withdraw =>
    ∃ front target, supplied[7]?.map Account.key = some target ∧
      plain = front ++ [{ key := target, signer := false, writable := true },
        { key := .tokenProgram, signer := false, writable := false }] ∧
      bumped = front ++ [{ key := target, signer := false, writable := true },
        { key := lendingProgram, signer := false, writable := false },
        { key := .tokenProgram, signer := false, writable := false }]

/-- The call of a movement `withBump`, against the call of the same movement `withoutBump`. -/
structure SameMovement (direction : Direction) (bump : UInt8) (amount : Amount)
    (supplied : List Account) (bumped plain : Invocation) : Prop where
  program : bumped.instruction.program = plain.instruction.program
  accounts : SameAccounts direction supplied bumped.instruction.accounts plain.instruction.accounts
  infos : bumped.infos = plain.infos
  seeds : bumped.seeds = plain.seeds
  bumped_data : bumped.instruction.data =
    Selector.instruction (Custody.withBump direction bump amount).name ++ bump :: amount.toWire
  plain_data : plain.instruction.data =
    Selector.instruction (Custody.withoutBump direction amount).name ++ amount.toWire

namespace Custody

variable {direction : Direction} {amount : Amount} {accounts : List Account}

/-- Whatever is passed along and whoever signs, the instructions of the two forms differ as
`SameMovement` says. -/
theorem sameMovement (bump : UInt8)
    (hfits : (LendingCall.custody (withoutBump direction amount)).Fits accounts)
    (infos : List Account) (authority : Option RelayAuthority) :
    let keys := ((LendingCall.custody (withoutBump direction amount)).seats accounts).key
    SameMovement direction bump amount accounts
      (invocationOf ((LendingCall.custody (withBump direction bump amount)).instruction
        lendingProgram keys) infos authority)
      (invocationOf ((LendingCall.custody (withoutBump direction amount)).instruction
        lendingProgram keys) infos authority) := by
  intro keys
  unfold invocationOf
  refine ⟨rfl, ?_, rfl, rfl, ?_, ?_⟩
  · cases direction with
    | deposit => rfl
    | withdraw =>
      have htarget := LendingCall.key_at hfits 7 (.written .withdrawAccount) rfl
      let front : List AccountMeta :=
        [⟨keys .market, false, false⟩, ⟨keys .marketAuthority, false, false⟩,
         ⟨keys .reserve, false, true⟩, ⟨keys .vault, false, true⟩,
         ⟨keys .depositNoteMint, false, true⟩, ⟨keys .depositor, true, false⟩,
         ⟨keys .depositAccount, false, true⟩]
      exact ⟨front, keys .withdrawAccount, htarget, rfl, rfl⟩
  · rfl
  · rfl

end Custody

namespace Relay

open Custody

/-! ## Two runs side by side -/

/-- A run of a movement with a bump, against a run of the same movement without one. The `accounts`
are those of the movement itself, `earlier` calls are made before its own, and `operation` says what
each form is announced as. -/
structure BumpRefines (direction : Direction) (bump : UInt8) (amount : Amount)
    (accounts : List Account) (earlier : Nat) (operation : Custody → RelayOperation)
    (bumped plain : Outcome Unit) : Prop where
  result_iff : bumped.result = .ok () ↔ plain.result = .ok () ∧ OwnNotes bump accounts
  calls : bumped.result = .ok () → ∃ before bumpedCall plainCall,
    before.length = earlier ∧
      Trace.calls bumped.trace = before ++ [bumpedCall] ∧
      Trace.calls plain.trace = before ++ [plainCall] ∧
      SameMovement direction bump amount accounts bumpedCall plainCall
  events : bumped.result = .ok () →
    Event.DifferInOperation (operation (withBump direction bump amount))
      (operation (withoutBump direction amount)) bumped.trace plain.trace

variable (framework : Framework) (direction : Direction) (bump : UInt8) (amount : Amount)
  (accounts : List Account) (bumpedTail plainTail : Bytes) (script : Script)

/-- The two forms alone. Both runs are admitted together by `admits_withBump_iff`, and then
`calls_serve_forward` and `events_custody` give both traces. -/
theorem forward_refines :
    BumpRefines direction bump amount accounts 0 Custody.operation
      (outcome framework relayProgram accounts
        ((Request.forward (.custody (withBump direction bump amount))).data ++ bumpedTail) script)
      (outcome framework relayProgram accounts
        ((Request.forward (.custody (withoutBump direction amount))).data ++ plainTail)
        script) where
  result_iff := by
    simp only [result_forward_iff, admits_withBump_iff, exists_and_right]
    exact and_right_comm
  calls hok := by
    obtain ⟨⟨authority, hadmits⟩, -⟩ := (result_forward_iff ..).mp hok
    obtain ⟨hplain, -⟩ := admits_withBump_iff.mp hadmits
    let call := LendingCall.custody (withoutBump direction amount)
    let infos := call.passedAlong (call.seats accounts)
    refine ⟨[], _, _, rfl, ?_, ?_, sameMovement bump hplain.fits infos authority⟩
    · rw [calls_outcome, calls_serve_forward hadmits]
      rfl
    · rw [calls_outcome, calls_serve_forward hplain]
      rfl
  events hok := by
    obtain ⟨⟨authority, hadmits⟩, hscript⟩ := (result_forward_iff ..).mp hok
    obtain ⟨hplain, -⟩ := admits_withBump_iff.mp hadmits
    -- Both records are those of the movement; `Custody.bump` is no part of one.
    exact Event.differInOperation_of_events
      (movementEvent (withBump direction bump amount) (withBump direction bump amount).operation
        accounts authority)
      (events_custody hadmits bumpedTail hscript) (events_custody hplain plainTail hscript)
      operation_withBump_ne.1

/-- The two forms behind an accrual. `admitsAccrued_withBump_iff` admits both runs together. The
accrual in front is one and the same call, so the calls are compared behind it, by `sameMovement`
again. -/
theorem accrueThen_refines :
    BumpRefines direction bump amount (ownAccounts accounts) 1 Custody.accruedOperation
      (outcome framework relayProgram accounts
        ((Request.accrueThen (withBump direction bump amount)).data ++ bumpedTail) script)
      (outcome framework relayProgram accounts
        ((Request.accrueThen (withoutBump direction amount)).data ++ plainTail) script) where
  result_iff := by
    simp only [result_accrueThen_iff, admitsAccrued_withBump_iff, exists_and_right]
    exact and_right_comm
  calls hok := by
    obtain ⟨⟨authority, hadmits⟩, hfirst, -⟩ := (result_accrueThen_iff ..).mp hok
    -- Whatever admits the form with a bump admits the other one, under the same authority.
    obtain ⟨hplain, -⟩ := admitsAccrued_withBump_iff.mp hadmits
    let move := withoutBump direction amount
    -- The accrual takes the accounts of both halves along, and these are the same for both forms.
    let infos := move.accruedAlong accounts
    let accrual := invocationOf (move.steps accounts).precondition infos none
    refine ⟨[accrual], _, _, rfl, ?_, ?_, sameMovement bump hplain.action.fits infos authority⟩
    · rw [calls_outcome, calls_serve_accrueThen hadmits, hfirst]
      rfl
    · rw [calls_outcome, calls_serve_accrueThen hplain, hfirst]
      rfl
  events hok := by
    obtain ⟨⟨authority, hadmits⟩, hfirst, hsecond⟩ := (result_accrueThen_iff ..).mp hok
    obtain ⟨hplain, -⟩ := admitsAccrued_withBump_iff.mp hadmits
    exact Event.differInOperation_of_events
      (movementEvent (withBump direction bump amount)
        (withBump direction bump amount).accruedOperation (ownAccounts accounts) authority)
      (events_accrued hadmits bumpedTail hfirst hsecond)
      (events_accrued hplain plainTail hfirst hsecond) operation_withBump_ne.2

/-- **A bump asks for own notes, and changes nothing else.** With a bump a movement succeeds exactly
when it does so without one and `OwnNotes` holds, with that bump. Its call and its event are then
the same up to the name, the bump and the lending program among the accounts of a withdrawal. So it
is for a movement alone and for one behind an accrual, whose call comes first in both runs and is
the same. -/
theorem withBump_refines :
    BumpRefines direction bump amount accounts 0 Custody.operation
        (outcome framework relayProgram accounts
          ((Request.forward (.custody (withBump direction bump amount))).data ++ bumpedTail) script)
        (outcome framework relayProgram accounts
          ((Request.forward (.custody (withoutBump direction amount))).data ++ plainTail)
          script) ∧
      BumpRefines direction bump amount (ownAccounts accounts) 1 Custody.accruedOperation
        (outcome framework relayProgram accounts
          ((Request.accrueThen (withBump direction bump amount)).data ++ bumpedTail) script)
        (outcome framework relayProgram accounts
          ((Request.accrueThen (withoutBump direction amount)).data ++ plainTail) script) :=
  ⟨forward_refines .., accrueThen_refines ..⟩

/-- `poolAccounts` with a depositor in its place who signs, and whose notes lie in the deposit
account of its own. -/
def depositorAccounts : List Account :=
  (poolAccounts.set 5 { key := .ofNat 6, signer := true }).set 6
    { key := .ofNat 0xc396bec6c0fa4253645378e8032269569a76e536c6479d78f9ae1e3d8519163e
      writable := true }

theorem ownNotes_depositor : OwnNotes 255 depositorAccounts := by
  refine ⟨_, _, _, rfl, rfl, rfl, ?_⟩
  decide +kernel

/-- A withdrawal by the depositor goes through without a bump, and so it does with the bump of the
deposit account, but with no other one. The two that go through are announced under two names, and
alike but for these. -/
theorem withBump_refines_depositor :
    (outcome .withoutIdl relayProgram depositorAccounts
        ((Request.forward (.custody (withoutBump .withdraw ⟨.tokens, 5⟩))).data ++ []) []).result =
        .ok () ∧
      (∀ bump, (outcome .withoutIdl relayProgram depositorAccounts
          ((Request.forward (.custody (withBump .withdraw bump ⟨.tokens, 5⟩))).data ++ [])
          []).result = .ok () ↔ bump = 255) ∧
      Event.DifferInOperation .withdraw .withdrawTokens
        (outcome .withoutIdl relayProgram depositorAccounts
          ((Request.forward (.custody (withBump .withdraw 255 ⟨.tokens, 5⟩))).data ++ []) []).trace
        (outcome .withoutIdl relayProgram depositorAccounts
          ((Request.forward (.custody (withoutBump .withdraw ⟨.tokens, 5⟩))).data ++ [])
          []).trace := by
  have hcalls : Trace.calls (serve (.forward (.custody (withoutBump .withdraw ⟨.tokens, 5⟩)))
      depositorAccounts []).trace ≠ [] := by
    decide +kernel
  have hplain : (outcome .withoutIdl relayProgram depositorAccounts
      ((Request.forward (.custody (withoutBump .withdraw ⟨.tokens, 5⟩))).data ++ []) []).result =
      .ok () := (result_forward_iff ..).mpr ⟨(calls_forward_ne_nil_iff ..).mp hcalls, rfl⟩
  have hrefines (bump : UInt8) :=
    (withBump_refines .withoutIdl .withdraw bump ⟨.tokens, 5⟩ depositorAccounts [] [] []).1
  have hbumped : ∀ bump, (outcome .withoutIdl relayProgram depositorAccounts
      ((Request.forward (.custody (withBump .withdraw bump ⟨.tokens, 5⟩))).data ++ [])
      []).result = .ok () ↔ bump = 255 := by
    intro bump
    refine (hrefines bump).result_iff.trans
      ⟨fun hown => hown.2.bump_eq ownNotes_depositor, ?_⟩
    rintro rfl
    exact ⟨hplain, ownNotes_depositor⟩
  exact ⟨hplain, hbumped, (hrefines 255).events ((hbumped 255).mpr rfl)⟩

end Relay

end LendingRelay
