import LendingRelay.Proofs.Serving

/-!
# Calls are passed on as they came

The relay takes a call apart before it passes it on: the data is decoded and written again, and the
accounts are taken by part and named again. Nothing is lost or moved on the way. The data that goes
out is the data that came in without the bytes behind the arguments, and the accounts are the
supplied ones in their order, less those that stay behind.

* `Relay.Forwards`: what goes out for each request, in terms of what came in.
* `LendingCall.Issued.namesSupplied`: the accounts of a call are the supplied ones.
* `Relay.forwards_of_call`: every call of the relay passes on what came in.
-/

namespace LendingRelay

/-! ## Data -/

/-- The data of the call is the data of the request, `LendingCall.data`. -/
theorem Request.data_forward (call : LendingCall) : (Request.forward call).data = call.data := rfl

/-- A composed request differs from the call of its movement in the `Selector` only. -/
theorem Request.data_accrueThen (move : Custody) :
    (Request.accrueThen move).data =
      Selector.instruction ("accrue_" ++ move.name) ++ move.arguments := rfl

/-! ## Accounts -/

/-- The instruction names, for the lending program, the accounts supplied for the call: the keys of
`LendingCall.supplied` in order, each writable exactly when it is declared so. -/
structure LendingCall.NamesSupplied (call : LendingCall) (own : List Account)
    (instruction : Instruction) : Prop where
  program : instruction.program = lendingProgram
  accounts :
    instruction.accounts.map (fun named => (named.key, named.writable)) =
      (call.supplied own).map fun pair => (pair.2.key, pair.1.writable)

theorem LendingCall.Issued.namesSupplied {call : LendingCall} {own accounts : List Account}
    {authority : Option RelayAuthority} {invocation : Invocation}
    (hissued : call.Issued own authority accounts invocation) :
    call.NamesSupplied own invocation.instruction where
  program := by rw [hissued.instruction]; rfl
  accounts := by
    rw [hissued.instruction]
    exact metas_eq_supplied hissued.admits.fits

/-! ## What goes out -/

namespace Relay

/-- What the call at place `i` passes on of a request that was read from the data and left the tail.
The first call of `Request.accrueThen` has no arguments; those of the request are in the second. -/
def Forwards (request : Request) (accounts : List Account) (data tail : Bytes) (i : Nat)
    (instruction : Instruction) : Prop :=
  match request, i with
  | .forward call, 0 => instruction.data ++ tail = data ∧ call.NamesSupplied accounts instruction
  | .accrueThen _, 0 =>
    instruction.data = Selector.instruction "accrue_interest" ∧
      LendingCall.accrueInterest.NamesSupplied accounts instruction
  | .accrueThen move, 1 =>
    (∃ arguments, data = Selector.instruction ("accrue_" ++ move.name) ++ arguments ++ tail ∧
        instruction.data = Selector.instruction move.name ++ arguments) ∧
      (LendingCall.custody move).NamesSupplied (Custody.ownAccounts accounts) instruction
  | .callDummy, 0 =>
    instruction.program = dummyProgram ∧
      instruction.data = Selector.instruction Dummy.messageName
  | _, _ => False

/-- A call of the lending program passes on its own part of the request, with its accounts by
`LendingCall.Issued.namesSupplied`. The cases are the three places of `Request.callAt?` at which
such a call can stand. -/
theorem forwards_of_issued {request : Request} {accounts own : List Account} {tail : Bytes}
    {i : Nat} {call : LendingCall} {authority : Option RelayAuthority} {invocation : Invocation}
    (hcall : request.callAt? accounts i = some (call, own))
    (hissued : call.Issued own authority accounts invocation) :
    Forwards request accounts (request.data ++ tail) tail i invocation.instruction := by
  have hnames := hissued.namesSupplied
  have hdata : invocation.instruction.data = call.data := by
    rw [hissued.instruction]
    rfl
  match request, i with
  | .forward lending, 0 =>
    cases hcall
    refine ⟨?_, hnames⟩
    rw [hdata, Request.data_forward]
  | .accrueThen move, 0 =>
    cases hcall
    -- Nothing comes behind the selector of the accrual.
    have hnothing : LendingCall.accrueInterest.data = Selector.instruction "accrue_interest" :=
      List.append_nil _
    exact ⟨hdata.trans hnothing, hnames⟩
  | .accrueThen move, 1 =>
    cases hcall
    refine ⟨⟨move.arguments, ?_, hdata⟩, hnames⟩
    rw [Request.data_accrueThen]

/-- **Verbatim forwarding.** Every call that a call of the relay makes passes on what came in: the
data up to the end of the arguments, and the accounts that were supplied for it. Only a call that
goes to the framework, by `Program.idlSelector`, passes nothing on by the relay. -/
theorem forwards_of_call {framework : Framework} {id : Pubkey} {accounts : List Account}
    {data : Bytes} {script : Script} {i : Nat} {invocation : Invocation}
    (hcall : (Trace.calls (outcome framework id accounts data script).trace)[i]? =
      some invocation) :
    (∃ request tail, program.Reads id data request tail ∧
        Forwards request accounts data tail i invocation.instruction) ∨
      ∃ rest, program.ReadsIdl id data rest := by
  rcases dispatches_of_call hcall with ⟨request, tail, hreads, hdispatches⟩ | ⟨rest, hidl, -⟩
  case inr => exact .inr ⟨rest, hidl⟩
  refine .inl ⟨request, tail, hreads, ?_⟩
  obtain ⟨rfl, rfl⟩ := (reads_iff ..).mp hreads
  -- Every call of the relay is one of `Dispatches`, so it stands at a known place.
  rcases hdispatches.cases_lending with ⟨call, own, authority, hat, hissued⟩ | hdummy
  · exact forwards_of_issued hat hissued
  · obtain ⟨rfl, rfl, -, rfl⟩ := hdummy
    exact ⟨rfl, rfl⟩

/-- Somebody else pays back a loan of the borrower. The borrower comes last, does not sign, and is
one of `LendingCall.seedRoles`. -/
def repayment : LendingCall :=
  .repay ⟨.loanNotes, 7⟩

def repaymentAccounts : List Account :=
  [{ key := mainMarket },
   { key := mainMarketAuthority },
   { key := borrowerObligation, writable := true },
   { key := poolReserve, writable := true },
   { key := .ofNat 4, writable := true },
   { key := .ofNat 5, writable := true },
   { key := .ofNat 0xb9278e629cb3a244028f4e49fd290365ceb8f655e17a29d40afbb1930123c3b6
     writable := true },
   { key := .ofNat 7, writable := true },
   { key := .ofNat 8, signer := true },
   { key := lendingProgram, executable := true },
   { key := .tokenProgram, executable := true },
   { key := borrower }]

theorem calls_serve_repayment :
    Trace.calls (serve (.forward repayment) repaymentAccounts []).trace =
      [repayment.invocation repaymentAccounts none] := by
  decide +kernel

/-- `repayment` is passed on without the bytes behind its arguments, and its last account stays
behind: neither the lending program nor the borrower is among the accounts of the call. -/
theorem forwards_repayment :
    (Trace.calls (outcome .withoutIdl relayProgram repaymentAccounts
        ((Request.forward repayment).data ++ [0xff, 0x2a]) []).trace)[0]? =
        some (repayment.invocation repaymentAccounts none) ∧
      (repayment.invocation repaymentAccounts none).instruction.accounts.map AccountMeta.key =
        (repaymentAccounts.eraseIdx 9).dropLast.map Account.key ∧
      ∃ request tail,
        program.Reads relayProgram ((Request.forward repayment).data ++ [0xff, 0x2a]) request
            tail ∧
          Forwards request repaymentAccounts ((Request.forward repayment).data ++ [0xff, 0x2a])
            tail 0 (repayment.invocation repaymentAccounts none).instruction := by
  have hcall : (Trace.calls (outcome .withoutIdl relayProgram repaymentAccounts
      ((Request.forward repayment).data ++ [0xff, 0x2a]) []).trace)[0]? =
      some (repayment.invocation repaymentAccounts none) := by
    rw [calls_outcome, calls_serve_repayment]
    rfl
  refine ⟨hcall, rfl, ?_⟩
  rcases forwards_of_call hcall with hforwards | ⟨rest, hidl⟩
  · exact hforwards
  · exact absurd hidl (not_readsIdl_of_reads (reads_data (.forward repayment) [0xff, 0x2a]) rest)

end Relay

end LendingRelay
