import LendingRelay.Proofs.Composition
import LendingRelay.Proofs.Discipline
import LendingRelay.Proofs.Privilege
import LendingRelay.Proofs.Records

/-!
# Events tell the truth

The record of an event and the instruction of the call before it are put together separately, each
from the seats. An indexer only sees the record. Here every field of it is traced to the call that
was made: to an account at its place, to the one signer, to the end of the data, to the seeds.

* `Announcement`, `LendingCall.announcement?`: what has to be announced about each call, by places.
* `LendingCall.amount_agrees`, `LendingCall.lifecycle_agrees`: the notices name what is at these
  places.
* `Relay.announces_of_ok`: every successful call of the relay announced the truth about its last
  call.
-/

namespace LendingRelay

/-! ## What has to be announced -/

/-- How an event describes a call, by places among the accounts of the call. The market is always
the first account. -/
inductive Announcement
  /-- An amount was passed on for its signer, and this is the place of the reserve. -/
  | amount (reserve : Nat)
  /-- The account at a place was opened or closed, for the signer or for the account at a place. -/
  | lifecycle (owner? : Option Nat) (account : Nat)
  deriving DecidableEq

/-- What has to be announced about each call, with places in `LendingCall.accounts`. A deposit
account is opened for the depositor, whoever pays for it. -/
def LendingCall.announcement? : LendingCall → Option Announcement
  | refreshReserve => none
  | refreshPsyfiReserve => none
  | accrueInterest => none
  | initObligation _ => some (.lifecycle none 3)
  | closeObligation => some (.lifecycle none 3)
  | initDepositAccount _ => some (.lifecycle (some 4) 6)
  | closeDepositAccount => some (.lifecycle none 6)
  | custody _ => some (.amount 2)
  | initCollateralAccount _ => some (.lifecycle none 6)
  | closeCollateralAccount => some (.lifecycle none 4)
  | transferCollateral _ _ _ _ => some (.amount 2)
  | initLoanAccount _ => some (.lifecycle none 6)
  | closeLoanAccount => some (.lifecycle none 4)
  | borrow _ _ => some (.amount 3)
  | repay _ => some (.amount 3)

def Request.announcement? : Request → Option Announcement
  | forward call => call.announcement?
  | accrueThen _ => some (.amount 2)
  | report _ => none
  | callDummy => none

/-! ## What it is for a record to be true -/

def Invocation.keyAt (invocation : Invocation) (place : Nat) : Option Pubkey :=
  (invocation.instruction.accounts[place]?).map AccountMeta.key

/-- The record is true of the call that was made for the relay instruction `name`. -/
structure AmountRelayed.TrueOf (record : AmountRelayed) (name : String) (place : Nat)
    (call : Invocation) : Prop where
  operation : record.operation.name = CamelCase.ofSnakeCase name
  market : call.keyAt 0 = some record.market
  reserve : call.keyAt place = some record.reserve
  owner : call.signers = [record.owner]
  amount : call.instruction.data.drop (call.instruction.data.length - Amount.wireLength) =
    record.amount.toWire
  signedByRelay : record.signedByRelay = true ↔ call.seeds ≠ []

/-- The owner in a record: the one of `Invocation.signers`, or the account at a place. -/
def Invocation.OwnedBy (call : Invocation) (owner? : Option Nat) (owner : Pubkey) : Prop :=
  match owner? with
  | none => call.signers = [owner]
  | some place => call.keyAt place = some owner

structure AccountLifecycle.TrueOf (record : AccountLifecycle) (name : String)
    (owner? : Option Nat) (place : Nat) (call : Invocation) : Prop where
  operation : record.operation.name = CamelCase.ofSnakeCase name
  market : call.keyAt 0 = some record.market
  owner : call.OwnedBy owner? record.owner
  account : call.keyAt place = some record.account

/-- The announced bytes are read as a record that is true of the call. -/
def Announcement.Tells (announcement : Announcement) (name : String) (call : Invocation)
    (bytes : Bytes) : Prop :=
  match announcement with
  | .amount place => ∃ record : AmountRelayed,
      Event.Reads "AmountRelayed" bytes record ∧ record.TrueOf name place call
  | .lifecycle owner? place => ∃ record : AccountLifecycle,
      Event.Reads "AccountLifecycle" bytes record ∧ record.TrueOf name owner? place call

/-- What was announced is what `Request.announcement?` asks for about the last call of the request.
Everything is about the bytes of the event, which have to read as a record by `Event.Reads`. -/
def Request.Announces (request : Request) (calls : List Invocation) (events : List (List Bytes)) :
    Prop :=
  match request.announcement? with
  | none => events = []
  | some announcement => ∃ action bytes, calls.getLast? = some action ∧ events = [[bytes]] ∧
      announcement.Tells request.name action bytes

/-! ## Operations and instructions -/

namespace RelayOperation

def instruction : RelayOperation → String
  | initObligation => "init_obligation"
  | closeObligation => "close_obligation"
  | initDepositAccount => "init_deposit_account"
  | closeDepositAccount => "close_deposit_account"
  | deposit => "deposit"
  | depositTokens => "deposit_tokens"
  | withdraw => "withdraw"
  | withdrawTokens => "withdraw_tokens"
  | initCollateralAccount => "init_collateral_account"
  | closeCollateralAccount => "close_collateral_account"
  | depositCollateral => "deposit_collateral"
  | withdrawCollateral => "withdraw_collateral"
  | initLoanAccount => "init_loan_account"
  | closeLoanAccount => "close_loan_account"
  | borrow => "borrow"
  | repay => "repay"
  | accrueDeposit => "accrue_deposit"
  | accrueWithdraw => "accrue_withdraw"
  | accrueDepositTokens => "accrue_deposit_tokens"
  | accrueWithdrawTokens => "accrue_withdraw_tokens"

/-- Every operation is named after its instruction, in the spelling of `CamelCase.ofSnakeCase` that
the log uses. -/
theorem name_eq (operation : RelayOperation) :
    operation.name = CamelCase.ofSnakeCase operation.instruction := by
  have hall : ∀ operation ∈ all, operation.name = CamelCase.ofSnakeCase operation.instruction := by
    decide +kernel
  exact hall operation (by cases operation <;> decide)

end RelayOperation

namespace Custody

theorem instruction_operation (move : Custody) : move.operation.instruction = move.name := by
  obtain ⟨direction, bump, amount⟩ := move
  cases direction <;> cases bump <;> rfl

theorem instruction_accruedOperation (move : Custody) :
    move.accruedOperation.instruction = "accrue_" ++ move.name := by
  obtain ⟨direction, bump, amount⟩ := move
  cases direction <;> cases bump <;>
    simp [accruedOperation, name, RelayOperation.instruction]

end Custody

/-! ## The tables agree

The notices name parts, and what has to be announced names places. Each of these lays the two next
to the accounts of the call, and the operation next to the name. -/

namespace LendingCall

/-- The account of the call at a place is the one in a part, by the `Target` in the table of the
call. -/
abbrev HasAt (call : LendingCall) (place : Nat) (role : Role) : Prop :=
  (call.accounts[place]?).map CallAccount.target = some (.role role)

theorem announcement_of_no_notice {call : LendingCall} (hnotice : call.notice? = none) :
    call.announcement? = none := by
  rcases call with _ | _ | _ | _ | _ | _ | _ | _ | _ | _ | ⟨_ | _, _, _, _⟩ <;>
    first | rfl | cases hnotice

theorem custody_reserve (move : Custody) : (custody move).HasAt 2 .reserve := by
  obtain ⟨direction, bump, amount⟩ := move
  cases direction <;> cases bump <;> rfl

/-- An announced amount: the reserve is at its place, the holder is the owner who has to consent,
the amount ends the arguments, and the operation has the name of the call. One case per call with an
amount in its `LendingCall.notice?`. -/
theorem amount_agrees {call : LendingCall} {operation : RelayOperation} {holder : Role}
    {amount : Amount} (hnotice : call.notice? = some (.amount operation holder amount)) :
    ∃ place, call.announcement? = some (.amount place) ∧ call.HasAt place .reserve ∧
      call.ownerRole? = some holder ∧ (∃ front, call.arguments = front ++ amount.toWire) ∧
      operation.instruction = call.name := by
  cases call with
  | custody move =>
    cases hnotice
    exact ⟨2, rfl, custody_reserve move, rfl, ⟨_, rfl⟩, move.instruction_operation⟩
  | transferCollateral direction collateralBump depositBump quantity =>
    cases direction with
    | deposit =>
      cases hnotice
      exact ⟨2, rfl, rfl, rfl, ⟨_, rfl⟩, rfl⟩
    | withdraw =>
      cases hnotice
      exact ⟨2, rfl, rfl, rfl, ⟨_, rfl⟩, rfl⟩
  | borrow bump quantity =>
    cases hnotice
    exact ⟨3, rfl, rfl, rfl, ⟨[bump], rfl⟩, rfl⟩
  | repay quantity =>
    cases hnotice
    exact ⟨3, rfl, rfl, rfl, ⟨[], rfl⟩, rfl⟩
  | _ => cases hnotice

/-- An announced account: it is at its place, the holder is the owner who has to consent or is at a
place of its own, and the operation has the name of the call. One case per call with an account in
its `LendingCall.notice?`. -/
theorem lifecycle_agrees {call : LendingCall} {operation : RelayOperation} {holder account : Role}
    (hnotice : call.notice? = some (.lifecycle operation holder account)) :
    ∃ owner? place, call.announcement? = some (.lifecycle owner? place) ∧
      call.HasAt place account ∧
      (match owner? with
        | none => call.ownerRole? = some holder
        | some ownerPlace => call.HasAt ownerPlace holder) ∧
      operation.instruction = call.name := by
  cases call with
  | custody move => cases hnotice
  | transferCollateral direction _ _ _ => cases direction <;> cases hnotice
  | _ =>
    cases hnotice
    all_goals exact ⟨_, _, rfl, rfl, rfl, rfl⟩

end LendingCall

/-! ## Records are true -/

namespace LendingCall

variable {call : LendingCall} (seating : Seating) (infos : List Account)
  (authority : Option RelayAuthority)

/-- The call as `invocationOf` sends it out from some seats. -/
abbrev sentFrom (call : LendingCall) (seating : Seating) (infos : List Account)
    (authority : Option RelayAuthority) : Invocation :=
  invocationOf (call.instruction lendingProgram seating.key) infos authority

theorem keyAt_sentFrom {place : Nat} {role : Role} (hplace : call.HasAt place role) :
    (call.sentFrom seating infos authority).keyAt place = some (seating.key role) := by
  -- The place leads to a target in the table of the call, and the target to a key.
  have hkeys : (call.sentFrom seating infos authority).keyAt place =
      ((call.accounts[place]?).map CallAccount.target).map
        (Target.key lendingProgram seating.key) := by
    show ((call.accounts.map _)[place]?).map AccountMeta.key = _
    rw [List.getElem?_map, Option.map_map, Option.map_map]
    rfl
  rw [hkeys, hplace]
  rfl

theorem market_sentFrom :
    (call.sentFrom seating infos authority).keyAt 0 = some (seating.key .market) := by
  have hhead := call.market_head lendingProgram seating.key
  rw [List.head?_eq_getElem?] at hhead
  exact hhead

theorem signers_sentFrom {role : Role} (hrole : call.ownerRole? = some role) :
    (call.sentFrom seating infos authority).signers = [seating.key role] := by
  have hsigners := call.signers_eq_supplied lendingProgram seating.key
  rw [hrole] at hsigners
  exact hsigners

/-- The seeds go out exactly when there is an authority to sign for, which is what the record says
in `signedByRelay`. -/
theorem seeds_sentFrom :
    authority.isSome = true ↔ (call.sentFrom seating infos authority).seeds ≠ [] := by
  show _ ↔ authority.toList.map RelayAuthority.signerSeeds ≠ []
  cases authority <;> simp

/-- An amount at the end of the arguments is the end of the data, since `Amount.length_toWire` is
all that is cut off. -/
theorem amount_sentFrom {amount : Amount}
    (hamount : ∃ front, call.arguments = front ++ amount.toWire) :
    (call.sentFrom seating infos authority).instruction.data.drop
        ((call.sentFrom seating infos authority).instruction.data.length - Amount.wireLength) =
      amount.toWire := by
  obtain ⟨front, hfront⟩ := hamount
  have hdata : (call.sentFrom seating infos authority).instruction.data =
      (Selector.instruction call.name ++ front) ++ amount.toWire := by
    show Selector.instruction call.name ++ call.arguments = _
    rw [hfront, List.append_assoc]
  rw [hdata]
  apply List.drop_left'
  have hlength := amount.length_toWire
  simp only [List.length_append] at hlength ⊢
  omega

/-- **A record of an amount is true of the call,** under the name of any instruction whose operation
it has. The name is left open for composed calls, which have one of their own. -/
theorem trueOf_amount {place : Nat} {holder : Role} {amount : Amount} {operation : RelayOperation}
    {name : String} (hreserve : call.HasAt place .reserve) (howner : call.ownerRole? = some holder)
    (hamount : ∃ front, call.arguments = front ++ amount.toWire)
    (hname : operation.instruction = name) :
    AmountRelayed.TrueOf
      { operation, amount, market := seating.key .market, reserve := seating.key .reserve
        owner := seating.key holder, signedByRelay := authority.isSome }
      name place (call.sentFrom seating infos authority) where
  operation := hname ▸ operation.name_eq
  market := market_sentFrom seating infos authority
  reserve := keyAt_sentFrom seating infos authority hreserve
  owner := signers_sentFrom seating infos authority howner
  amount := amount_sentFrom seating infos authority hamount
  signedByRelay := seeds_sentFrom seating infos authority

/-- **The notice of a call tells the truth about it.** `amount_agrees` or `lifecycle_agrees` give
the places, and the lemmas on `sentFrom` what is there. -/
theorem tells_notice {notice : Notice} (hnotice : call.notice? = some notice) :
    ∃ announcement, call.announcement? = some announcement ∧
      announcement.Tells call.name (call.sentFrom seating infos authority)
        (notice.event seating authority).data := by
  cases notice with
  | amount operation holder amount =>
    obtain ⟨place, hannouncement, hreserve, howner, hamount, hname⟩ := amount_agrees hnotice
    exact ⟨_, hannouncement, _, Event.reads_amountRelayed _,
      trueOf_amount seating infos authority hreserve howner hamount hname⟩
  | lifecycle operation holder account =>
    obtain ⟨owner?, place, hannouncement, haccount, howner, hname⟩ := lifecycle_agrees hnotice
    refine ⟨_, hannouncement, _, Event.reads_accountLifecycle _,
      { operation := hname ▸ operation.name_eq
        market := market_sentFrom seating infos authority
        owner := ?_
        account := keyAt_sentFrom seating infos authority haccount }⟩
    cases owner? with
    | none => exact signers_sentFrom seating infos authority howner
    | some ownerPlace => exact keyAt_sentFrom seating infos authority howner

end LendingCall

/-! ## Successful calls of the relay -/

namespace Relay

theorem announces_forward {call : LendingCall} {accounts : List Account}
    {authority : Option RelayAuthority} (hadmits : call.Admits accounts authority)
    {script : Script} (hok : (serve (.forward call) accounts script).result = .ok ()) :
    (Request.forward call).Announces (Trace.calls (serve (.forward call) accounts script).trace)
      (Trace.events (serve (.forward call) accounts script).trace) := by
  obtain ⟨hcalls, hevents, -⟩ := (course_forward hadmits script).effects_of_ok hok
  -- A successful run made the one call and announced its notice, if it has one.
  rw [hcalls, hevents, LendingCall.announced]
  cases hnotice : call.notice? with
  | none =>
    have hnone : (Request.forward call).announcement? = none :=
      LendingCall.announcement_of_no_notice hnotice
    rw [Request.Announces, hnone]
    rfl
  | some notice =>
    obtain ⟨announcement, hsome, htells⟩ := LendingCall.tells_notice (call.seats accounts)
      (call.passedAlong (call.seats accounts)) authority hnotice
    have hsome : (Request.forward call).announcement? = some announcement := hsome
    rw [Request.Announces, hsome]
    exact ⟨_, _, rfl, rfl, htells⟩

theorem announces_accrueThen {move : Custody} {accounts : List Account}
    {authority : Option RelayAuthority} (hadmits : move.AdmitsAccrued accounts authority)
    {script : Script} (hok : (serve (.accrueThen move) accounts script).result = .ok ()) :
    (Request.accrueThen move).Announces
      (Trace.calls (serve (.accrueThen move) accounts script).trace)
      (Trace.events (serve (.accrueThen move) accounts script).trace) := by
  obtain ⟨hcalls, hevents, -⟩ := (course_accrueThen hadmits script).effects_of_ok hok
  rw [hcalls, hevents]
  -- The movement is described as if it were made alone, only under the name of the composed call.
  have htrue := LendingCall.trueOf_amount
    ((LendingCall.custody move).seats (Custody.ownAccounts accounts)) (move.accruedAlong accounts)
    authority (LendingCall.custody_reserve move) rfl ⟨_, rfl⟩ move.instruction_accruedOperation
  exact ⟨_, _, rfl, rfl, _, Event.reads_amountRelayed _, htrue⟩

/-- **Events tell the truth.** A successful call of the relay has read a request, and has announced
about its last call what has to be announced: nothing, or one record, each field of which is true of
that call. Only where data starts with `Program.idlSelector` it is the framework that succeeded. A
success means that the request was admitted, so the runs of `announces_forward` and
`announces_accrueThen` are all that is left beside reports and `Request.callDummy`. -/
theorem announces_of_ok {framework : Framework} {id : Pubkey} {accounts : List Account}
    {data : Bytes} {script : Script}
    (hok : (outcome framework id accounts data script).result = .ok ()) :
    (∃ request tail, program.Reads id data request tail ∧
        request.Announces (Trace.calls (outcome framework id accounts data script).trace)
          (Trace.events (outcome framework id accounts data script).trace)) ∨
      ∃ rest, program.ReadsIdl id data rest := by
  rcases program.entryOn_cases framework id accounts data with
    ⟨request, tail, hreads⟩ | hidl | hrefuses
  case inr.inl => exact .inr hidl
  case inr.inr =>
    obtain ⟨fault, hfault⟩ := hrefuses.fails script
    rw [outcome, Run.result_conclude_ok_iff, hfault] at hok
    cases hok
  refine .inl ⟨request, tail, hreads, ?_⟩
  obtain ⟨rfl, rfl⟩ := (reads_iff ..).mp hreads
  have hserved := (result_outcome_iff ..).mp hok
  rw [calls_outcome, events_outcome]
  -- Nothing is left around `serve`, so the request decides.
  cases request with
  | forward call =>
    obtain ⟨⟨authority, hadmits⟩, -⟩ := (result_forward_iff ..).mp hok
    exact announces_forward hadmits hserved
  | accrueThen move =>
    obtain ⟨⟨authority, hadmits⟩, -⟩ := (result_accrueThen_iff ..).mp hok
    exact announces_accrueThen hadmits hserved
  | report report => exact (logs_serve_report report accounts).quiet.events script
  | callDummy =>
    by_cases hfits : Seating.Fits relayProgram dummySlots accounts
    · exact ((course_callDummy hfits script).effects_of_ok hserved).2.1
    · have hrefuses : Run.Refuses (serve .callDummy accounts) := (refuses_takeSeats hfits).bind _
      exact hrefuses.quiet.events script

/-- The deposit `poolMove` succeeds behind the accrual of its reserve, and so what was announced
about the second of the two calls is true. -/
theorem announces_poolAccrual :
    (outcome .withoutIdl relayProgram (poolAccrualAccounts ++ poolAccounts)
        ((Request.accrueThen poolMove).data ++ [0xff]) []).result = .ok () ∧
      ∃ request tail, program.Reads relayProgram ((Request.accrueThen poolMove).data ++ [0xff])
          request tail ∧
        request.Announces
          (Trace.calls (outcome .withoutIdl relayProgram (poolAccrualAccounts ++ poolAccounts)
            ((Request.accrueThen poolMove).data ++ [0xff]) []).trace)
          (Trace.events (outcome .withoutIdl relayProgram (poolAccrualAccounts ++ poolAccounts)
            ((Request.accrueThen poolMove).data ++ [0xff]) []).trace) := by
  have hok : (outcome .withoutIdl relayProgram (poolAccrualAccounts ++ poolAccounts)
      ((Request.accrueThen poolMove).data ++ [0xff]) []).result = .ok () :=
    (result_accrueThen_iff ..).mpr ⟨admits_poolAccrual, rfl, rfl⟩
  refine ⟨hok, ?_⟩
  rcases announces_of_ok hok with hannounces | ⟨rest, hidl⟩
  · exact hannounces
  · exact absurd hidl (not_readsIdl_of_reads (reads_data (.accrueThen poolMove) [0xff]) rest)

end Relay

end LendingRelay
