import LendingRelay.Proofs.Records
import LendingRelay.Proofs.Serving

/-!
# Composed movements

A movement with the reserve accrued first is one call of the relay that makes two calls. It is meant
as a shorthand for two calls of the relay, and so it is: it takes the accounts of both in a row,
goes through exactly when both would and when they name the same market and reserve, and makes the
same calls in the same order. Only its event has a name of its own.

* `Custody.admitsAccrued_append_iff`: both halves are admitted on their own accounts.
* `Relay.result_forward_iff`, `Relay.result_accrueThen_iff`: when a call of the relay succeeds.
* `Relay.composed_eq_manual`: the composed call against the two calls it stands for.
-/

namespace LendingRelay

/-! ## Accounts of the two halves -/

/-- Both account lists name the same market, which comes first, and the same reserve, which comes
third. The places are those of `LendingCall.slots`. -/
def SameReserve (accrual action : List Account) : Prop :=
  accrual[0]?.map Account.key = action[0]?.map Account.key ∧
    accrual[2]?.map Account.key = action[2]?.map Account.key

namespace Custody

theorem ownAccounts_append {accrual : List Account}
    (hlength : accrual.length = LendingCall.accrueInterest.slots.length) (action : List Account) :
    ownAccounts (accrual ++ action) = action :=
  List.drop_left' hlength

/-- `SameReserve` compares places, and `Custody.AdmitsAccrued` compares parts; on fitting accounts
`LendingCall.key_at` makes them the same. -/
theorem sameReserve_iff {move : Custody} {accrual action : List Account}
    (haccrual : LendingCall.accrueInterest.Fits accrual)
    (haction : (LendingCall.custody move).Fits action) :
    SameReserve accrual action ↔
      (LendingCall.accrueInterest.seats accrual).key .market =
          ((LendingCall.custody move).seats action).key .market ∧
        (LendingCall.accrueInterest.seats accrual).key .reserve =
          ((LendingCall.custody move).seats action).key .reserve := by
  -- The four keys at the places are the four keys of the parts.
  have hmarket := LendingCall.key_at haccrual 0 (.written .market) rfl
  have hreserve := LendingCall.key_at haccrual 2 (.written .reserve) rfl
  have hmarket' := LendingCall.key_at haction 0 (.readOnly .market) rfl
  have hreserve' := LendingCall.key_at haction 2 (.written .reserve) rfl
  rw [SameReserve, hmarket, hreserve, hmarket', hreserve', Option.some.injEq, Option.some.injEq]
  rfl

/-- `Custody.AdmitsAccrued` on two lists in a row is `LendingCall.Admits` of each half on its own
list and `SameReserve`. The accrual takes exactly its seven accounts, so `Seating.seat_append`
separates them. -/
theorem admitsAccrued_append_iff (move : Custody) {accrual action : List Account}
    (hlength : accrual.length = LendingCall.accrueInterest.slots.length)
    (authority : Option RelayAuthority) :
    move.AdmitsAccrued (accrual ++ action) authority ↔
      SameReserve accrual action ∧ LendingCall.accrueInterest.Admits accrual none ∧
        (LendingCall.custody move).Admits action authority := by
  have henough : LendingCall.accrueInterest.slots.length ≤ accrual.length :=
    Nat.le_of_eq hlength.symm
  have hseats : LendingCall.accrueInterest.seats (accrual ++ action) =
      LendingCall.accrueInterest.seats accrual := Seating.seat_append relayProgram action henough
  have hown := ownAccounts_append hlength action
  -- Seats and own accounts of the joined list are those of the two lists; the rest is rewriting.
  refine ⟨fun hadmits => ?_, fun hhalves => ?_⟩
  · have haccrual : LendingCall.accrueInterest.Admits accrual none :=
      { fits := (Seating.fits_append_iff relayProgram action henough).mp hadmits.accrual.fits
        authorized := hseats ▸ hadmits.accrual.authorized }
    have haction : (LendingCall.custody move).Admits action authority := hown ▸ hadmits.action
    refine ⟨(sameReserve_iff haccrual.fits haction.fits).mpr ⟨?_, ?_⟩, haccrual, haction⟩
    · have hmarket := hadmits.market
      rw [hseats, hown] at hmarket
      exact hmarket
    · have hreserve := hadmits.reserve
      rw [hseats, hown] at hreserve
      exact hreserve
  · obtain ⟨hsame, haccrual, haction⟩ := hhalves
    obtain ⟨hmarket, hreserve⟩ := (sameReserve_iff haccrual.fits haction.fits).mp hsame
    refine
      { accrual :=
          { fits := (Seating.fits_append_iff relayProgram action henough).mpr haccrual.fits
            authorized := by rw [hseats]; exact haccrual.authorized }
        action := by rw [hown]; exact haction
        market := ?_
        reserve := ?_ }
    · rw [hseats, hown]
      exact hmarket
    · rw [hseats, hown]
      exact hreserve

/-- The instructions of a composed movement are those of the two calls, by the same separation of
the accounts. -/
theorem steps_append (move : Custody) {accrual action : List Account}
    (hlength : accrual.length = LendingCall.accrueInterest.slots.length) :
    move.steps (accrual ++ action) =
      .accrueThen lendingProgram (LendingCall.accrueInterest.seats accrual).key
        ((LendingCall.custody move).instruction lendingProgram
          ((LendingCall.custody move).seats action).key) := by
  have hseats : LendingCall.accrueInterest.seats (accrual ++ action) =
      LendingCall.accrueInterest.seats accrual :=
    Seating.seat_append relayProgram action (Nat.le_of_eq hlength.symm)
  rw [steps, hseats, ownAccounts_append hlength]

end Custody

/-! ## When calls of the relay succeed -/

namespace Relay

variable {framework : Framework}

/-- A call is passed on with success exactly when some authority admits it and the `Script` lets the
called program succeed. -/
theorem result_forward_iff (call : LendingCall) (accounts : List Account) (tail : Bytes)
    (script : Script) :
    (outcome framework relayProgram accounts ((Request.forward call).data ++ tail)
        script).result = .ok () ↔
      (∃ authority, call.Admits accounts authority) ∧ script.head?.getD none = none := by
  rw [result_outcome_iff]
  by_cases hadmits : ∃ authority, call.Admits accounts authority
  · obtain ⟨authority, hadmits⟩ := hadmits
    rw [serve_forward_apply hadmits]
    cases script.head?.getD none with
    | none => exact ⟨fun _ => ⟨⟨authority, hadmits⟩, rfl⟩, fun _ => rfl⟩
    | some error => simp
  · have hrefuses := serve_forward_of_not_admits fun authority h => hadmits ⟨authority, h⟩
    obtain ⟨fault, hfault⟩ := hrefuses.fails script
    simp [hfault, hadmits]

/-- A composed movement succeeds exactly when some authority admits it and the `Script` lets both
called programs succeed. -/
theorem result_accrueThen_iff (move : Custody) (accounts : List Account) (tail : Bytes)
    (script : Script) :
    (outcome framework relayProgram accounts ((Request.accrueThen move).data ++ tail)
        script).result = .ok () ↔
      (∃ authority, move.AdmitsAccrued accounts authority) ∧ script.head?.getD none = none ∧
        script.tail.head?.getD none = none := by
  rw [result_outcome_iff]
  by_cases hadmits : ∃ authority, move.AdmitsAccrued accounts authority
  · obtain ⟨authority, hadmits⟩ := hadmits
    rw [serve_accrueThen_apply hadmits]
    cases script.head?.getD none with
    | some error => simp
    | none =>
      cases script.tail.head?.getD none with
      | none => exact ⟨fun _ => ⟨⟨authority, hadmits⟩, rfl, rfl⟩, fun _ => rfl⟩
      | some error => simp
  · have hrefuses := serve_accrueThen_of_not_admits fun authority h => hadmits ⟨authority, h⟩
    obtain ⟨fault, hfault⟩ := hrefuses.fails script
    simp [hfault, hadmits]

/-! ## The composed call and the two calls -/

end Relay

/-- A movement is announced under another operation when it is composed: `Custody.operation` and
`Custody.accruedOperation` never agree. -/
theorem Custody.operation_ne_accruedOperation (move : Custody) :
    move.operation ≠ move.accruedOperation := by
  obtain ⟨direction, bump, amount⟩ := move
  cases direction <;> cases bump <;> simp [operation, accruedOperation]

/-- What a called program gets to see of a call: the instruction, and whom the caller signs for. The
accounts passed along with it are left out, since a composed call passes those of both halves. -/
def Invocation.sent (invocation : Invocation) : Instruction × List (List Bytes) :=
  (invocation.instruction, invocation.seeds)

namespace Relay

variable {framework : Framework}

/-- What is called for an admitted call, by `calls_serve_forward`. -/
theorem sent_forward {call : LendingCall} {accounts : List Account}
    {authority : Option RelayAuthority} (hadmits : call.Admits accounts authority) (tail : Bytes)
    (script : Script) :
    (Trace.calls (outcome framework relayProgram accounts ((Request.forward call).data ++ tail)
        script).trace).map Invocation.sent = [(call.invocation accounts authority).sent] := by
  rw [calls_outcome, calls_serve_forward hadmits]
  rfl

/-- What is called for an admitted composed movement: the accrual, and then, if that succeeded, the
movement. By `Custody.steps_append` each is the call of its own half. -/
theorem sent_accrueThen {move : Custody} {accrual action : List Account}
    {authority : Option RelayAuthority}
    (hlength : accrual.length = LendingCall.accrueInterest.slots.length)
    (hadmits : move.AdmitsAccrued (accrual ++ action) authority) (tail : Bytes) (script : Script) :
    (Trace.calls (outcome framework relayProgram (accrual ++ action)
        ((Request.accrueThen move).data ++ tail) script).trace).map Invocation.sent =
      (LendingCall.accrueInterest.invocation accrual none).sent ::
        match script.head?.getD none with
        | some _ => []
        | none => [((LendingCall.custody move).invocation action authority).sent] := by
  rw [calls_outcome, calls_serve_accrueThen hadmits, Custody.steps_append move hlength]
  cases script.head?.getD none with
  | some error => rfl
  | none => rfl

theorem map_instruction_eq (calls : List Invocation) :
    calls.map Invocation.instruction = (calls.map Invocation.sent).map Prod.fst := by
  rw [List.map_map]
  rfl

/-- The record of a movement, whatever it is part of. Only `operation` says what it was. -/
def movementEvent (move : Custody) (operation : RelayOperation) (accounts : List Account)
    (authority : Option RelayAuthority) : AmountRelayed :=
  let seating := (LendingCall.custody move).seats accounts
  { operation
    market := seating.key .market
    reserve := seating.key .reserve
    owner := seating.key .depositor
    amount := move.amount
    signedByRelay := authority.isSome }

/-- A movement that succeeded announces its `movementEvent`. -/
theorem events_custody {move : Custody} {accounts : List Account}
    {authority : Option RelayAuthority}
    (hadmits : (LendingCall.custody move).Admits accounts authority) (tail : Bytes)
    {script : Script} (hscript : script.head?.getD none = none) :
    Trace.events (outcome framework relayProgram accounts
        ((Request.forward (.custody move)).data ++ tail) script).trace =
      [[(Event.amountRelayed (movementEvent move move.operation accounts authority)).data]] := by
  rw [events_outcome, serve_forward_apply hadmits, hscript]
  rfl

/-- A composed movement that succeeded announces one `movementEvent` as well, from its
`Custody.ownAccounts`. -/
theorem events_accrued {move : Custody} {accounts : List Account}
    {authority : Option RelayAuthority} (hadmits : move.AdmitsAccrued accounts authority)
    (tail : Bytes) {script : Script} (hfirst : script.head?.getD none = none)
    (hsecond : script.tail.head?.getD none = none) :
    Trace.events (outcome framework relayProgram accounts ((Request.accrueThen move).data ++ tail)
        script).trace =
      [[(Event.amountRelayed (movementEvent move move.accruedOperation
          (Custody.ownAccounts accounts) authority)).data]] := by
  rw [events_outcome, serve_accrueThen_apply hadmits, hfirst, hsecond]
  rfl

theorem events_accrueThen {move : Custody} {accrual action : List Account}
    {authority : Option RelayAuthority}
    (hlength : accrual.length = LendingCall.accrueInterest.slots.length)
    (hadmits : move.AdmitsAccrued (accrual ++ action) authority) (tail : Bytes) {script : Script}
    (hfirst : script.head?.getD none = none) (hsecond : script.tail.head?.getD none = none) :
    Trace.events (outcome framework relayProgram (accrual ++ action)
        ((Request.accrueThen move).data ++ tail) script).trace =
      [[(Event.amountRelayed
          (movementEvent move move.accruedOperation action authority)).data]] := by
  rw [events_accrued hadmits tail hfirst hsecond, Custody.ownAccounts_append hlength]

/-- A composed call succeeds exactly when the two calls do and `SameReserve` holds. The ends of its
two calls are the ends of the calls one by one. -/
theorem result_composed_iff (move : Custody) {accrual action : List Account}
    (hlength : accrual.length = LendingCall.accrueInterest.slots.length)
    (composedTail accrualTail actionTail : Bytes) (first second : Option ProgramError) :
    (outcome framework relayProgram (accrual ++ action)
        ((Request.accrueThen move).data ++ composedTail) [first, second]).result = .ok () ↔
      SameReserve accrual action ∧
        (outcome framework relayProgram accrual
          ((Request.forward .accrueInterest).data ++ accrualTail) [first]).result = .ok () ∧
        (outcome framework relayProgram action
          ((Request.forward (.custody move)).data ++ actionTail) [second]).result = .ok () := by
  -- All three results are about admission and the script, so only the admissions are compared.
  rw [result_accrueThen_iff, result_forward_iff, result_forward_iff]
  refine ⟨fun hcomposed => ?_, fun hmanual => ?_⟩
  · obtain ⟨⟨authority, hadmits⟩, hfirst, hsecond⟩ := hcomposed
    obtain ⟨hsame, haccrual, haction⟩ :=
      (move.admitsAccrued_append_iff hlength authority).mp hadmits
    exact ⟨hsame, ⟨⟨none, haccrual⟩, hfirst⟩, ⟨authority, haction⟩, hsecond⟩
  · obtain ⟨hsame, ⟨⟨nobody, haccrual⟩, hfirst⟩, ⟨authority, haction⟩, hsecond⟩ := hmanual
    -- The composed call never signs the accrual; alone, the accrual is not signed either.
    rw [haccrual.authority_of_accrueInterest] at haccrual
    have hadmits := (move.admitsAccrued_append_iff hlength authority).mpr
      ⟨hsame, haccrual, haction⟩
    exact ⟨⟨authority, hadmits⟩, hfirst, hsecond⟩

/-- After a failed accrual nothing else is called: the `Script` ends the run there, if the run got
that far. -/
theorem instructions_of_failed (move : Custody) {accrual action : List Account}
    (hlength : accrual.length = LendingCall.accrueInterest.slots.length) (tail : Bytes)
    {first : Option ProgramError} (second : Option ProgramError) (hfailed : first ≠ none) :
    let called := (Trace.calls (outcome framework relayProgram (accrual ++ action)
      ((Request.accrueThen move).data ++ tail) [first, second]).trace).map Invocation.instruction
    called = [] ∨ called =
      [LendingCall.accrueInterest.instruction lendingProgram
        (LendingCall.accrueInterest.seats accrual).key] := by
  obtain ⟨error, rfl⟩ := Option.ne_none_iff_exists'.mp hfailed
  dsimp only
  by_cases hadmits : ∃ authority, move.AdmitsAccrued (accrual ++ action) authority
  · obtain ⟨authority, hadmits⟩ := hadmits
    right
    rw [map_instruction_eq, sent_accrueThen hlength hadmits]
    rfl
  · left
    have hrefuses := serve_accrueThen_of_not_admits fun authority h => hadmits ⟨authority, h⟩
    rw [calls_outcome, hrefuses.quiet.calls]
    rfl

/-- **Composed equals manual.** A composed call succeeds exactly when the accrual and the movement,
called one by one for their own accounts, both succeed and name the same market and reserve. It then
makes the calls of the two, in their order, and its event differs from that of the movement in the
operation only, as `Event.DifferInOperation` reads them. After a failed accrual the movement is not
called. -/
theorem composed_eq_manual (framework : Framework) (move : Custody) (accrual action : List Account)
    (hlength : accrual.length = LendingCall.accrueInterest.slots.length)
    (composedTail accrualTail actionTail : Bytes) (first second : Option ProgramError) :
    let composed := outcome framework relayProgram (accrual ++ action)
      ((Request.accrueThen move).data ++ composedTail) [first, second]
    let accrued := outcome framework relayProgram accrual
      ((Request.forward .accrueInterest).data ++ accrualTail) [first]
    let moved := outcome framework relayProgram action
      ((Request.forward (.custody move)).data ++ actionTail) [second]
    let steps := TwoStep.accrueThen lendingProgram (LendingCall.accrueInterest.seats accrual).key
      ((LendingCall.custody move).instruction lendingProgram
        ((LendingCall.custody move).seats action).key)
    (composed.result = .ok () ↔
        SameReserve accrual action ∧ accrued.result = .ok () ∧ moved.result = .ok ()) ∧
      (composed.result = .ok () →
        (Trace.calls composed.trace).map Invocation.sent =
            (Trace.calls accrued.trace).map Invocation.sent ++
              (Trace.calls moved.trace).map Invocation.sent ∧
          (Trace.calls composed.trace).map Invocation.instruction = steps.instructions ∧
          Event.DifferInOperation move.operation move.accruedOperation moved.trace
            composed.trace) ∧
      (first ≠ none →
        (Trace.calls composed.trace).map Invocation.instruction = [] ∨
          (Trace.calls composed.trace).map Invocation.instruction = [steps.precondition]) := by
  refine ⟨result_composed_iff move hlength composedTail accrualTail actionTail first second, ?_,
    instructions_of_failed move hlength composedTail second⟩
  intro hok
  -- A success fixes both ends and the authority, and with them every trace.
  obtain ⟨⟨authority, hadmits⟩, hfirst, hsecond⟩ := (result_accrueThen_iff ..).mp hok
  obtain ⟨-, haccrual, haction⟩ := (move.admitsAccrued_append_iff hlength authority).mp hadmits
  refine ⟨?_, ?_, ?_⟩
  · rw [sent_accrueThen hlength hadmits, sent_forward haccrual, sent_forward haction, hfirst]
    rfl
  · rw [map_instruction_eq, sent_accrueThen hlength hadmits, hfirst]
    rfl
  · exact Event.differInOperation_of_events (movementEvent move move.operation action authority)
      (events_custody haction actionTail hsecond)
      (events_accrueThen hlength hadmits composedTail hfirst hsecond)
      move.operation_ne_accruedOperation

/-- The pool's deposit goes through with the reserve accrued first, as the two instructions that are
otherwise submitted one by one, and is announced under a name of its own. -/
theorem composed_poolDeposit :
    poolAccrualAccounts.length = LendingCall.accrueInterest.slots.length ∧
      (outcome .withoutIdl relayProgram (poolAccrualAccounts ++ poolAccounts)
        ((Request.accrueThen poolMove).data ++ []) [none, none]).result = .ok () ∧
      (Trace.calls (outcome .withoutIdl relayProgram (poolAccrualAccounts ++ poolAccounts)
          ((Request.accrueThen poolMove).data ++ []) [none, none]).trace).map
            Invocation.instruction =
        (TwoStep.accrueThen lendingProgram
          (LendingCall.accrueInterest.seats poolAccrualAccounts).key
          (poolDeposit.instruction lendingProgram
            (poolDeposit.seats poolAccounts).key)).instructions ∧
      Event.DifferInOperation .depositTokens .accrueDepositTokens
        (outcome .withoutIdl relayProgram poolAccounts
          ((Request.forward (.custody poolMove)).data ++ []) [none]).trace
        (outcome .withoutIdl relayProgram (poolAccrualAccounts ++ poolAccounts)
          ((Request.accrueThen poolMove).data ++ []) [none, none]).trace := by
  have hlength : poolAccrualAccounts.length = LendingCall.accrueInterest.slots.length := rfl
  have hok : (outcome .withoutIdl relayProgram (poolAccrualAccounts ++ poolAccounts)
      ((Request.accrueThen poolMove).data ++ []) [none, none]).result = .ok () :=
    (result_accrueThen_iff ..).mpr ⟨admits_poolAccrual, rfl, rfl⟩
  have hmanual := composed_eq_manual .withoutIdl poolMove poolAccrualAccounts poolAccounts hlength
    [] [] [] none none
  obtain ⟨-, hinstructions, hevents⟩ := hmanual.2.1 hok
  exact ⟨hlength, hok, hinstructions, hevents⟩

end Relay

end LendingRelay
