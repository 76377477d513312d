import LendingRelay.Proofs.Authorization
import LendingRelay.Proofs.CallAccounts
import LendingRelay.Proofs.Entering
import LendingRelay.Proofs.Reports

/-!
# Serving requests

A request is served in one of two ways. Either the accounts and everything checked about them are in
order, and then the whole course of the run is fixed by how the calls end; or they are not, and the
request is refused before any call.

* `LendingCall.Admits`, `Custody.AdmitsAccrued`: the accounts are in order.
* `Relay.serve_forward_apply`, `Relay.serve_accrueThen_apply`: the whole run when they are.
* `Relay.serve_forward_of_not_admits`, `Relay.serve_accrueThen_of_not_admits`: refusal when not.
* `Relay.dispatches_of_getElem?`: every call that is made, with its place and the accounts it needs.
-/

namespace LendingRelay

/-! ## Admitted requests -/

/-- The accounts fit the slots of the call, and what is checked about them authorises it. -/
structure LendingCall.Admits (call : LendingCall) (accounts : List Account)
    (authority : Option RelayAuthority) : Prop where
  fits : call.Fits accounts
  authorized : call.Authorized (call.seats accounts) authority

/-- `LendingCall.accrueInterest` needs nobody's consent, so it is never signed. -/
theorem LendingCall.Admits.authority_of_accrueInterest {accounts : List Account}
    {authority : Option RelayAuthority}
    (hadmits : LendingCall.accrueInterest.Admits accounts authority) : authority = none :=
  hadmits.authorized.owner

/-- The call as it goes out: `invocationOf` from its own seats. -/
def LendingCall.invocation (call : LendingCall) (accounts : List Account)
    (authority : Option RelayAuthority) : Invocation :=
  invocationOf (call.instruction lendingProgram (call.seats accounts).key)
    (call.passedAlong (call.seats accounts)) authority

namespace Custody

/-- The accounts of the movement itself, which come behind those of `LendingCall.accrueInterest`. -/
def ownAccounts (accounts : List Account) : List Account :=
  accounts.drop LendingCall.accrueInterest.slots.length

/-- Both halves of a composed movement are admitted, each by `LendingCall.Admits` on its own
accounts, and they name the same market and reserve. -/
structure AdmitsAccrued (move : Custody) (accounts : List Account)
    (authority : Option RelayAuthority) : Prop where
  accrual : LendingCall.accrueInterest.Admits accounts none
  action : (LendingCall.custody move).Admits (ownAccounts accounts) authority
  market :
    (LendingCall.accrueInterest.seats accounts).key .market =
      ((LendingCall.custody move).seats (ownAccounts accounts)).key .market
  reserve :
    (LendingCall.accrueInterest.seats accounts).key .reserve =
      ((LendingCall.custody move).seats (ownAccounts accounts)).key .reserve

/-- The accounts passed along with both calls of a composed movement: `LendingCall.passedAlong` of
the one half and of the other. -/
def accruedAlong (move : Custody) (accounts : List Account) : List Account :=
  LendingCall.accrueInterest.passedAlong (LendingCall.accrueInterest.seats accounts) ++
    (LendingCall.custody move).passedAlong ((LendingCall.custody move).seats (ownAccounts accounts))

/-- The two instructions of a composed movement, as `Custody.forwardAccrued` builds them. -/
def steps (move : Custody) (accounts : List Account) : TwoStep :=
  .accrueThen lendingProgram (LendingCall.accrueInterest.seats accounts).key
    ((LendingCall.custody move).instruction lendingProgram
      ((LendingCall.custody move).seats (ownAccounts accounts)).key)

end Custody

/-! ## The course of an admitted run -/

theorem lendingProgram_ne_dummyProgram : lendingProgram ≠ dummyProgram := by
  decide +kernel

/-- The log line in front of a call of the lending program. -/
def callLine (authority : Option RelayAuthority) : TraceEntry :=
  .log s!"cpi:{lendingProgram} signed={authority.isSome}"

theorem invoke_lending_apply (instruction : Instruction) (infos : List Account)
    (authority : Option RelayAuthority) (script : Script)
    (hprogram : instruction.program = lendingProgram) :
    invoke instruction infos authority script =
      { result :=
          match script.head?.getD none with
          | none => .ok ()
          | some error => .error { cause := .program error }
        trace := [callLine authority, .call (invocationOf instruction infos authority)]
        script := script.tail } := by
  rw [invoke_apply, hprogram]
  · rfl
  · rw [hprogram]
    exact lendingProgram_ne_dummyProgram

namespace Relay

theorem takeSeats_of_fits {slots : List Slot} {accounts : List Account}
    (hfits : Seating.Fits relayProgram slots accounts) :
    takeSeats slots accounts =
      pure (Seating.seat relayProgram slots accounts, accounts.drop slots.length) := by
  unfold takeSeats
  rw [Seating.take_of_fits hfits]
  rfl

theorem refuses_takeSeats {slots : List Slot} {accounts : List Account}
    (hfits : ¬Seating.Fits relayProgram slots accounts) :
    Run.Refuses (takeSeats slots accounts) := by
  obtain ⟨fault, htake⟩ := Seating.take_of_not_fits hfits
  unfold takeSeats
  rw [htake]
  exact Run.refuses_fail fault

/-- **The run of an admitted call.** It makes its one call, and announces its `LendingCall.notice?`
when the call succeeded. By `LendingCall.authorize_of_authorized` the checks are a value, and with
that the run is a single `invoke` and what follows. -/
theorem serve_forward_apply {call : LendingCall} {accounts : List Account}
    {authority : Option RelayAuthority} (hadmits : call.Admits accounts authority)
    (script : Script) :
    serve (.forward call) accounts script =
      match script.head?.getD none with
      | none =>
        { result := .ok ()
          trace := callLine authority :: .call (call.invocation accounts authority) ::
            call.notice?.toList.map fun notice =>
              .data [(notice.event (call.seats accounts) authority).data]
          script := script.tail }
      | some error =>
        { result := .error { cause := .program error }
          trace := [callLine authority, .call (call.invocation accounts authority)]
          script := script.tail } := by
  have hserve : serve (.forward call) accounts = call.forward (call.seats accounts) := by
    show takeSeats call.slots accounts >>= _ = _
    rw [takeSeats_of_fits hadmits.fits, pure_bind]
  rw [hserve, LendingCall.forward, LendingCall.authorize_of_authorized hadmits.authorized,
    pure_bind]
  -- What is left is the call itself and the notice behind it.
  show Run.bind _ _ script = _
  unfold Run.bind
  rw [invoke_lending_apply _ _ _ _ rfl]
  cases script.head?.getD none with
  | some error => rfl
  | none =>
    cases call.notice? with
    | none => rfl
    | some notice => rfl

/-- A call whose accounts are not in order is refused, by `takeSeats` or
by `LendingCall.authorize`. -/
theorem serve_forward_of_not_admits {call : LendingCall} {accounts : List Account}
    (hnone : ∀ authority, ¬call.Admits accounts authority) :
    Run.Refuses (serve (.forward call) accounts) := by
  show Run.Refuses (takeSeats call.slots accounts >>= fun _ => _)
  -- Either the accounts do not fit, or they do and the checks about them fail.
  by_cases hfits : call.Fits accounts
  · rw [takeSeats_of_fits hfits, pure_bind]
    have hauthorized : ∀ authority, ¬call.Authorized (call.seats accounts) authority := by
      intro authority h
      exact hnone authority ⟨hfits, h⟩
    exact (LendingCall.authorize_of_not_authorized hauthorized).bind _
  · exact (refuses_takeSeats hfits).bind _

/-- **The run of an admitted composed movement.** The accrual is called first, and only when it
succeeded the movement itself; the event comes when both did. As in `serve_forward_apply`, the
checks are values and only the two calls are left. -/
theorem serve_accrueThen_apply {move : Custody} {accounts : List Account}
    {authority : Option RelayAuthority} (hadmits : move.AdmitsAccrued accounts authority)
    (script : Script) :
    serve (.accrueThen move) accounts script =
      let infos := move.accruedAlong accounts
      let steps := move.steps accounts
      let accrual := .call (invocationOf steps.precondition infos none)
      let action := .call (invocationOf steps.action infos authority)
      let notice := Notice.amount move.accruedOperation .depositor move.amount
      let seating := (LendingCall.custody move).seats (Custody.ownAccounts accounts)
      match script.head?.getD none with
      | some error =>
        { result := .error { cause := .program error }
          trace := [callLine none, accrual]
          script := script.tail }
      | none =>
        match script.tail.head?.getD none with
        | some error =>
          { result := .error { cause := .program error }
            trace := [callLine none, accrual, callLine authority, action]
            script := script.tail.tail }
        | none =>
          { result := .ok ()
            trace := [callLine none, accrual, callLine authority, action,
              .data [(notice.event seating authority).data]]
            script := script.tail.tail } := by
  have hserve : serve (.accrueThen move) accounts =
      move.forwardAccrued (LendingCall.accrueInterest.seats accounts)
        ((LendingCall.custody move).seats (Custody.ownAccounts accounts)) := by
    show takeSeats LendingCall.accrueInterest.slots accounts >>= _ = _
    rw [takeSeats_of_fits hadmits.accrual.fits, pure_bind]
    show takeSeats _ (Custody.ownAccounts accounts) >>= _ = _
    rw [takeSeats_of_fits hadmits.action.fits, pure_bind]
  rw [hserve, Custody.forwardAccrued, Run.requireKeysEq_eq, if_pos hadmits.market, pure_bind,
    Run.requireKeysEq_eq, if_pos hadmits.reserve, pure_bind,
    LendingCall.authorize_of_authorized hadmits.accrual.authorized, pure_bind,
    LendingCall.authorize_of_authorized hadmits.action.authorized, pure_bind]
  -- What is left is the pair of calls and the notice behind it.
  show Run.bind (Run.bind _ _) _ script = _
  unfold Run.bind
  dsimp only
  rw [invoke_lending_apply _ _ _ _ rfl]
  cases script.head?.getD none with
  | some error => rfl
  | none =>
    dsimp only
    rw [invoke_lending_apply _ _ _ _ rfl]
    cases script.tail.head?.getD none with
    | some error => rfl
    | none => rfl

/-- A composed movement whose accounts are not in order is refused before its first call, since
`Custody.forwardAccrued` checks both halves beforehand. -/
theorem serve_accrueThen_of_not_admits {move : Custody} {accounts : List Account}
    (hnone : ∀ authority, ¬move.AdmitsAccrued accounts authority) :
    Run.Refuses (serve (.accrueThen move) accounts) := by
  show Run.Refuses (takeSeats LendingCall.accrueInterest.slots accounts >>= fun _ => _)
  -- One check after the other: the first that fails refuses, and all cannot pass.
  by_cases haccrual : LendingCall.accrueInterest.Fits accounts
  case neg => exact (refuses_takeSeats haccrual).bind _
  rw [takeSeats_of_fits haccrual, pure_bind]
  show Run.Refuses (takeSeats _ (Custody.ownAccounts accounts) >>= fun _ => _)
  by_cases haction : (LendingCall.custody move).Fits (Custody.ownAccounts accounts)
  case neg => exact (refuses_takeSeats haction).bind _
  rw [takeSeats_of_fits haction, pure_bind]
  show Run.Refuses (Run.requireKeysEq _ _ _ >>= fun _ => _)
  rw [Run.requireKeysEq_eq]
  by_cases hmarket : (LendingCall.accrueInterest.seats accounts).key .market =
      ((LendingCall.custody move).seats (Custody.ownAccounts accounts)).key .market
  case neg =>
    rw [if_neg hmarket]
    exact (Run.refuses_fail _).bind _
  rw [if_pos hmarket, pure_bind, Run.requireKeysEq_eq]
  by_cases hreserve : (LendingCall.accrueInterest.seats accounts).key .reserve =
      ((LendingCall.custody move).seats (Custody.ownAccounts accounts)).key .reserve
  case neg =>
    rw [if_neg hreserve]
    exact (Run.refuses_fail _).bind _
  rw [if_pos hreserve, pure_bind]
  rcases LendingCall.authorized_or_refuses .accrueInterest
    (LendingCall.accrueInterest.seats accounts) with ⟨_, hfirst, heq⟩ | ⟨-, hrefuses⟩
  case inr => exact hrefuses.bind _
  rw [heq, pure_bind]
  refine (LendingCall.authorize_of_not_authorized fun authority hsecond => ?_).bind _
  -- Whatever the accrual was authorised with, it needs nobody's consent.
  have hnobody : LendingCall.accrueInterest.Authorized
      (LendingCall.accrueInterest.seats accounts) none := ⟨hfirst.addresses, rfl⟩
  exact hnone authority
    { accrual := ⟨haccrual, hnobody⟩
      action := ⟨haction, hsecond⟩
      market := hmarket
      reserve := hreserve }

/-! ## Every call that is made -/

/-- The accounts declared for `Request.callDummy`. -/
abbrev dummySlots : List Slot :=
  [.readOnly .dummyAcc, .dummyProgram]

/-- The call of `Dummy.message` as it goes out. -/
def dummyInvocation (accounts : List Account) : Invocation :=
  let seating := Seating.seat relayProgram dummySlots accounts
  invocationOf (Dummy.message dummyProgram (seating.key .dummyAcc))
    [seating.account .dummyAcc, seating.account .dummyProgram] none

/-- The calls that serving a request can make, each with its place and with the accounts in order
for it. A report is not among them. -/
inductive Dispatches : Request → List Account → Nat → Invocation → Prop
  | forward {call : LendingCall} {accounts : List Account} {authority : Option RelayAuthority}
      (hadmits : call.Admits accounts authority) :
      Dispatches (.forward call) accounts 0 (call.invocation accounts authority)
  | accrual {move : Custody} {accounts : List Account} {authority : Option RelayAuthority}
      (hadmits : move.AdmitsAccrued accounts authority) :
      Dispatches (.accrueThen move) accounts 0
        (invocationOf (move.steps accounts).precondition (move.accruedAlong accounts) none)
  | action {move : Custody} {accounts : List Account} {authority : Option RelayAuthority}
      (hadmits : move.AdmitsAccrued accounts authority) :
      Dispatches (.accrueThen move) accounts 1
        (invocationOf (move.steps accounts).action (move.accruedAlong accounts) authority)
  | dummy {accounts : List Account} (hfits : Seating.Fits relayProgram dummySlots accounts) :
      Dispatches .callDummy accounts 0 (dummyInvocation accounts)

/-- An admitted call is made once, by `serve_forward_apply`. -/
theorem calls_serve_forward {call : LendingCall} {accounts : List Account}
    {authority : Option RelayAuthority} (hadmits : call.Admits accounts authority)
    (script : Script) :
    Trace.calls (serve (.forward call) accounts script).trace =
      [call.invocation accounts authority] := by
  rw [serve_forward_apply hadmits]
  cases script.head?.getD none with
  | some error => rfl
  | none => cases call.notice? <;> rfl

/-- An admitted composed movement calls the accrual, and the movement if the `Script` let the
accrual succeed. -/
theorem calls_serve_accrueThen {move : Custody} {accounts : List Account}
    {authority : Option RelayAuthority} (hadmits : move.AdmitsAccrued accounts authority)
    (script : Script) :
    Trace.calls (serve (.accrueThen move) accounts script).trace =
      invocationOf (move.steps accounts).precondition (move.accruedAlong accounts) none ::
        match script.head?.getD none with
        | some _ => []
        | none =>
          [invocationOf (move.steps accounts).action (move.accruedAlong accounts) authority] := by
  -- The three ways the script can go; only the calls of each trace are kept.
  rw [serve_accrueThen_apply hadmits]
  cases script.head?.getD none with
  | some error => rfl
  | none => cases script.tail.head?.getD none <;> rfl

/-- `LendingCall.Admits` for some authority is exactly what lets a call out. -/
theorem calls_forward_ne_nil_iff (call : LendingCall) (accounts : List Account) (script : Script) :
    Trace.calls (serve (.forward call) accounts script).trace ≠ [] ↔
      ∃ authority, call.Admits accounts authority := by
  by_cases hadmits : ∃ authority, call.Admits accounts authority
  · obtain ⟨authority, hadmits⟩ := hadmits
    rw [calls_serve_forward hadmits]
    exact ⟨fun _ => ⟨authority, hadmits⟩, fun _ => List.cons_ne_nil _ _⟩
  · have hrefuses := serve_forward_of_not_admits fun authority h => hadmits ⟨authority, h⟩
    rw [hrefuses.quiet.calls]
    exact ⟨fun h => absurd rfl h, fun h => absurd h hadmits⟩

/-- `Custody.AdmitsAccrued` for some authority is exactly what lets the first call of a composed
movement out. -/
theorem calls_accrueThen_ne_nil_iff (move : Custody) (accounts : List Account) (script : Script) :
    Trace.calls (serve (.accrueThen move) accounts script).trace ≠ [] ↔
      ∃ authority, move.AdmitsAccrued accounts authority := by
  by_cases hadmits : ∃ authority, move.AdmitsAccrued accounts authority
  · obtain ⟨authority, hadmits⟩ := hadmits
    rw [calls_serve_accrueThen hadmits]
    exact ⟨fun _ => ⟨authority, hadmits⟩, fun _ => List.cons_ne_nil _ _⟩
  · have hrefuses := serve_accrueThen_of_not_admits fun authority h => hadmits ⟨authority, h⟩
    rw [hrefuses.quiet.calls]
    exact ⟨fun h => absurd rfl h, fun h => absurd h hadmits⟩

/-- Serving a report writes figures and does nothing else: taking the accounts is silent, and
`Report.logs_write` is the rest. -/
theorem logs_serve_report (report : Report) (accounts : List Account) :
    Run.Logs Report.IsFigure (serve (.report report) accounts) :=
  (Run.logs_ofExcept _).bind fun _ => report.logs_write _

theorem calls_serve_report (report : Report) (accounts : List Account) (script : Script) :
    Trace.calls (serve (.report report) accounts script).trace = [] :=
  (logs_serve_report report accounts).quiet.calls script

theorem serve_callDummy_of_fits {accounts : List Account}
    (hfits : Seating.Fits relayProgram dummySlots accounts) :
    serve .callDummy accounts = callDummy (Seating.seat relayProgram dummySlots accounts) := by
  show takeSeats dummySlots accounts >>= _ = _
  rw [takeSeats_of_fits hfits, pure_bind]

theorem calls_serve_callDummy {accounts : List Account}
    (hfits : Seating.Fits relayProgram dummySlots accounts) (script : Script) :
    Trace.calls (serve .callDummy accounts script).trace = [dummyInvocation accounts] := by
  rw [serve_callDummy_of_fits hfits]
  exact calls_invoke _ _ _ _

theorem eq_of_getElem?_singleton {a b : α} {i : Nat} (hget : [a][i]? = some b) :
    i = 0 ∧ a = b := by
  cases i with
  | zero => exact ⟨rfl, Option.some.inj hget⟩
  | succ i => cases hget

/-- **Every call is accounted for.** A call that `serve` makes is one of `Dispatches`, at its place,
and the accounts are in order for it. -/
theorem dispatches_of_getElem? {request : Request} {accounts : List Account} {script : Script}
    {i : Nat} {invocation : Invocation}
    (hget : (Trace.calls (serve request accounts script).trace)[i]? = some invocation) :
    Dispatches request accounts i invocation := by
  have hcalls : Trace.calls (serve request accounts script).trace ≠ [] := by
    intro hnil
    rw [hnil] at hget
    cases hget
  -- There is a call, so the request was admitted; that pins the list of calls and the place in it.
  cases request with
  | forward call =>
    obtain ⟨authority, hadmits⟩ := (calls_forward_ne_nil_iff ..).mp hcalls
    rw [calls_serve_forward hadmits] at hget
    obtain ⟨rfl, rfl⟩ := eq_of_getElem?_singleton hget
    exact .forward hadmits
  | accrueThen move =>
    obtain ⟨authority, hadmits⟩ := (calls_accrueThen_ne_nil_iff ..).mp hcalls
    rw [calls_serve_accrueThen hadmits] at hget
    match i with
    | 0 =>
      cases hget
      exact .accrual hadmits
    | i + 1 =>
      -- The second call is there only if the first one succeeded.
      rw [List.getElem?_cons_succ] at hget
      cases hscript : script.head?.getD none with
      | some error =>
        rw [hscript] at hget
        cases hget
      | none =>
        rw [hscript] at hget
        obtain ⟨rfl, rfl⟩ := eq_of_getElem?_singleton hget
        exact .action hadmits
  | report report => exact absurd (calls_serve_report ..) hcalls
  | callDummy =>
    by_cases hfits : Seating.Fits relayProgram dummySlots accounts
    · rw [calls_serve_callDummy hfits] at hget
      obtain ⟨rfl, rfl⟩ := eq_of_getElem?_singleton hget
      exact .dummy hfits
    · have hrefuses : Run.Refuses (serve .callDummy accounts) := (refuses_takeSeats hfits).bind _
      exact absurd (hrefuses.quiet.calls script) hcalls

/-! ## Calls of the lending program

Whether a call goes out alone or as half of a composed movement, it is a call of the lending program
for accounts of its own. So what holds of one such call need not be proved once for each place. -/

end Relay

/-- The call of the lending program that a request makes at a place, with the accounts that are its
own. -/
def Request.callAt? (request : Request) (accounts : List Account) (i : Nat) :
    Option (LendingCall × List Account) :=
  match request, i with
  | .forward call, 0 => some (call, accounts)
  | .accrueThen _, 0 => some (.accrueInterest, accounts)
  | .accrueThen move, 1 => some (.custody move, Custody.ownAccounts accounts)
  | _, _ => none

/-- The invocation carries the call as it is made for its `own` accounts. Accounts of the caller are
passed along, and all that belong to the call are among them. -/
structure LendingCall.Issued (call : LendingCall) (own : List Account)
    (authority : Option RelayAuthority) (accounts : List Account) (invocation : Invocation) :
    Prop where
  admits : call.Admits own authority
  own_subset : ∀ account ∈ own, account ∈ accounts
  instruction : invocation.instruction = call.instruction lendingProgram (call.seats own).key
  seeds : invocation.seeds = authority.toList.map RelayAuthority.signerSeeds
  passed : ∀ account ∈ call.passedAlong (call.seats own), account.toMeta ∈ invocation.infos
  infos_subset : ∀ info ∈ invocation.infos, ∃ account ∈ accounts, info = account.toMeta

theorem LendingCall.Admits.issued {call : LendingCall} {own accounts infos : List Account}
    {authority : Option RelayAuthority} (hadmits : call.Admits own authority)
    (hown : ∀ account ∈ own, account ∈ accounts)
    (hpassed : ∀ account ∈ call.passedAlong (call.seats own), account ∈ infos)
    (hinfos : ∀ account ∈ infos, account ∈ accounts) :
    call.Issued own authority accounts
      (invocationOf (call.instruction lendingProgram (call.seats own).key) infos authority) where
  admits := hadmits
  own_subset := hown
  instruction := rfl
  seeds := rfl
  passed := fun account hmem => List.mem_map_of_mem (hpassed account hmem)
  infos_subset := by
    intro info hinfo
    obtain ⟨account, hmem, rfl⟩ := List.mem_map.mp hinfo
    exact ⟨account, hinfos account hmem, rfl⟩

theorem Custody.ownAccounts_subset (accounts : List Account) :
    ∀ account ∈ ownAccounts accounts, account ∈ accounts :=
  fun _ hmem => List.mem_of_mem_drop hmem

/-- The accounts passed along with a composed movement are the caller's, by
`LendingCall.passedAlong_subset` for each half. -/
theorem Custody.AdmitsAccrued.accruedAlong_subset {move : Custody} {accounts : List Account}
    {authority : Option RelayAuthority} (hadmits : move.AdmitsAccrued accounts authority) :
    ∀ account ∈ move.accruedAlong accounts, account ∈ accounts := by
  intro account hmem
  rcases List.mem_append.mp hmem with haccrual | haction
  · exact LendingCall.passedAlong_subset hadmits.accrual.fits account haccrual
  · exact ownAccounts_subset accounts account
      (LendingCall.passedAlong_subset hadmits.action.fits account haction)

namespace Relay

/-- **Calls of the lending program.** Each of `Dispatches` is `LendingCall.Issued` for the call at
`Request.callAt?`, unless the request is for the dummy program. -/
theorem Dispatches.cases_lending {request : Request} {accounts : List Account} {i : Nat}
    {invocation : Invocation} (hdispatches : Dispatches request accounts i invocation) :
    (∃ call own authority, request.callAt? accounts i = some (call, own) ∧
        call.Issued own authority accounts invocation) ∨
      request = .callDummy ∧ i = 0 ∧ Seating.Fits relayProgram dummySlots accounts ∧
        invocation = dummyInvocation accounts := by
  -- The accounts passed along contain those of the half at hand, in front or behind.
  cases hdispatches with
  | @forward call _ authority hadmits =>
    refine .inl ⟨call, accounts, authority, rfl, ?_⟩
    exact hadmits.issued (fun _ hmem => hmem) (fun _ hmem => hmem)
      (LendingCall.passedAlong_subset hadmits.fits)
  | @accrual move _ _ hadmits =>
    refine .inl ⟨.accrueInterest, accounts, none, rfl, ?_⟩
    exact hadmits.accrual.issued (fun _ hmem => hmem) (fun _ hmem => List.mem_append_left _ hmem)
      hadmits.accruedAlong_subset
  | @action move _ authority hadmits =>
    refine .inl ⟨.custody move, Custody.ownAccounts accounts, authority, rfl, ?_⟩
    exact hadmits.action.issued (Custody.ownAccounts_subset accounts)
      (fun _ hmem => List.mem_append_right _ hmem) hadmits.accruedAlong_subset
  | dummy hfits => exact .inr ⟨rfl, rfl, hfits, rfl⟩

/-- Every call that a call of the relay makes is one of `Dispatches`, or it is made by
`Framework.idl`. -/
theorem dispatches_of_call {framework : Framework} {id : Pubkey} {accounts : List Account}
    {data : Bytes} {script : Script} {i : Nat} {invocation : Invocation}
    (hcall : (Trace.calls (outcome framework id accounts data script).trace)[i]? =
      some invocation) :
    (∃ request tail, program.Reads id data request tail ∧
        Dispatches request accounts i invocation) ∨
      ∃ rest, program.ReadsIdl id data rest ∧
        (Trace.calls (framework.idl id accounts rest script).trace)[i]? = some invocation := by
  have hcalls : Trace.calls (outcome framework id accounts data script).trace ≠ [] := by
    intro hnil
    rw [hnil] at hcall
    cases hcall
  rcases exists_request_of_calls hcalls with ⟨request, tail, hreads⟩ | ⟨rest, hidl⟩
  · obtain ⟨rfl, rfl⟩ := (reads_iff ..).mp hreads
    rw [calls_outcome] at hcall
    exact .inl ⟨request, tail, hreads, dispatches_of_getElem? hcall⟩
  · rw [outcome_of_readsIdl accounts script hidl, Run.calls_conclude] at hcall
    exact .inr ⟨rest, hidl, hcall⟩

/-! ## A pool and a borrower

A pool holds its notes under the relay's authority of the main market. The authority did not sign
the deposit, so the relay signs for it. A borrower signs for itself, and its accounts are the ones
derived for it. -/

/-- The relay's authority of the main market, as `RelayAuthority.derive` finds it. -/
def poolAuthority : RelayAuthority :=
  { market := mainMarket
    address := .ofNat 0xf66352d5d265266b1a36e07188a7b369ea9c81c6ca7373104d7c217c359ec41e
    bump := 255 }

/-- What `AddressCheck.marketAuthority` asks for on the main market. -/
def mainMarketAuthority : Pubkey :=
  .ofNat 0x4a0746a98f83421ffac6cca9d8e0cebda8b854a5e3fc182c0d3437d96f74ea2e

def poolReserve : Pubkey :=
  .ofNat 0x3af363ddd2e043af8339e770096c813e498958346b14bd4e075cd2f1d990ef4d

def poolMove : Custody :=
  { direction := .deposit, bump := none, amount := ⟨.tokens, 5⟩ }

def poolDeposit : LendingCall :=
  .custody poolMove

def poolAccounts : List Account :=
  [{ key := mainMarket },
   { key := mainMarketAuthority },
   { key := poolReserve, writable := true },
   { key := .ofNat 4, writable := true },
   { key := .ofNat 5, writable := true },
   { key := poolAuthority.address },
   { key := .ofNat 7, writable := true },
   { key := .ofNat 8, writable := true },
   { key := lendingProgram, executable := true },
   { key := .tokenProgram, executable := true }]

/-- The accounts for accruing `poolReserve`. -/
def poolAccrualAccounts : List Account :=
  [{ key := mainMarket, writable := true },
   { key := mainMarketAuthority },
   { key := poolReserve, writable := true },
   { key := .ofNat 9, writable := true },
   { key := .ofNat 5, writable := true },
   { key := lendingProgram, executable := true },
   { key := .tokenProgram, executable := true }]

/-- Who owns an obligation on the main market. -/
def borrower : Pubkey := .ofNat 10

/-- The obligation of `borrower`, which has bump 255. -/
def borrowerObligation : Pubkey :=
  .ofNat 0x4797a774f45901e3c88780844f033cf85df0358ffaf7e6cbbd6aada39376f5a1

/-- The deposit goes out once, signed with the seeds of `poolAuthority`. -/
theorem calls_serve_poolDeposit :
    Trace.calls (serve (.forward poolDeposit) poolAccounts []).trace =
      [poolDeposit.invocation poolAccounts (some poolAuthority)] := by
  decide +kernel

/-- `poolMove` is admitted behind the accrual of its reserve, since its first call goes out. -/
theorem admits_poolAccrual :
    ∃ authority, poolMove.AdmitsAccrued (poolAccrualAccounts ++ poolAccounts) authority := by
  have hcalls : Trace.calls (serve (.accrueThen poolMove) (poolAccrualAccounts ++ poolAccounts)
      []).trace ≠ [] := by
    decide +kernel
  exact (calls_accrueThen_ne_nil_iff ..).mp hcalls

end Relay

end LendingRelay
