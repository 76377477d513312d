import LendingRelay.Proofs.CallAccounts
import LendingRelay.Proofs.Entering
import Mathlib.Data.List.Forall2

/-!
# What a call of the relay looks at

Apart from the reports, the relay passes on what it is given without reading it. Of an account it
looks at the key and the flags, and at the length of the rent parameters; of the data of a call, at
the request. Two calls that agree on these come to the same outcome, with the same trace.

* `Seating.sameEnd_take`: accounts that agree are seated alike, or refused with the same fault.
* `invoke_alike`, `LendingCall.forward_alike`: with alike accounts the same calls are made.
* `Relay.serve_agree`: serving a request looks at nothing else.
* `Relay.outcome_blind`: the statement about calls of the relay.
-/

namespace LendingRelay

/-! ## Accounts that agree -/

/-- The accounts differ at most in their owners, their lamports and their data. -/
structure Account.Alike (a b : Account) : Prop where
  key : a.key = b.key
  signer : a.signer = b.signer
  writable : a.writable = b.writable
  executable : a.executable = b.executable

/-- What a slot looks at is the same in both accounts. The slot of the rent parameters also looks at
whether the account with the parameters has `Slot.rentLength` bytes. -/
structure Slot.SeesAlike (slot : Slot) (a b : Account) : Prop extends a.Alike b where
  rent : slot.kind = .rent → a.key = .rentSysvar →
    (Slot.rentLength ≤ a.data.length ↔ Slot.rentLength ≤ b.data.length)

/-- Each slot has `Slot.SeesAlike` for its two accounts, as far as there are accounts. Those behind
the slots are not compared. -/
inductive AgreeOn : List Slot → List Account → List Account → Prop
  | rest (accounts others : List Account) : AgreeOn [] accounts others
  | missing (slots : List Slot) : AgreeOn slots [] []
  | seen {slot : Slot} {slots : List Slot} {a b : Account} {accounts others : List Account}
      (hsees : slot.SeesAlike a b) (hrest : AgreeOn slots accounts others) :
      AgreeOn (slot :: slots) (a :: accounts) (b :: others)

/-- Agreement on two groups of slots is agreement on each, with the accounts that are left over.
Induction on the first group, each slot of which takes one account on either side. -/
theorem AgreeOn.append {slots more : List Slot} {accounts others : List Account}
    (hagree : AgreeOn (slots ++ more) accounts others) :
    AgreeOn slots accounts others ∧
      AgreeOn more (accounts.drop slots.length) (others.drop slots.length) := by
  induction slots generalizing accounts others with
  | nil => exact ⟨.rest _ _, hagree⟩
  | cons slot slots ih =>
    cases hagree with
    | missing => exact ⟨.missing _, .missing _⟩
    | seen hsees hrest =>
      obtain ⟨hfront, hback⟩ := ih hrest
      exact ⟨.seen hsees hfront, hback⟩

/-- Accounts with `Account.Alike` agree on slots that do not take the rent parameters. -/
theorem AgreeOn.of_alike {slots : List Slot} {accounts others : List Account}
    (hslots : ∀ slot ∈ slots, slot.kind ≠ .rent)
    (halike : List.Forall₂ Account.Alike accounts others) : AgreeOn slots accounts others := by
  induction halike generalizing slots with
  | nil => exact .missing slots
  | cons hfirst _ ih =>
    cases slots with
    | nil => exact .rest _ _
    | cons slot slots =>
      rw [List.forall_mem_cons] at hslots
      exact .seen ⟨hfirst, fun hrent => absurd hrent hslots.1⟩ (ih hslots.2)

/-! ## Taking accounts -/

theorem Slot.accept_alike {slot : Slot} {a b : Account} (hsees : slot.SeesAlike a b)
    (hkind : slot.kind ≠ .optionalTokens) (program : Pubkey) :
    slot.accept program a = slot.accept program b := by
  unfold Slot.accept
  cases hcase : slot.kind with
  | unchecked => rfl
  | pinned key error => rfl
  | program key => rw [hsees.key, hsees.executable]
  | rent =>
    -- Only an account with the key of the rent parameters is looked into.
    by_cases hkey : a.key = .rentSysvar
    · simp only [hsees.rent hcase hkey, hsees.key]
    · have hother : b.key ≠ .rentSysvar := hsees.key ▸ hkey
      simp only [hkey, hother, false_and, if_false]
  | optionalTokens => exact absurd hcase hkind

theorem Slot.constrain_alike {a b : Account} (halike : a.Alike b) (slot : Slot) :
    slot.constrain a = slot.constrain b := by
  unfold Slot.constrain
  rw [halike.key, halike.writable]

/-- The same parts in the same order, played by alike accounts. -/
abbrev Seating.Alike : Seating → Seating → Prop :=
  List.Forall₂ fun mine theirs => mine.slot = theirs.slot ∧ mine.account.Alike theirs.account

/-- The same fault, or values that stand in a relation. -/
inductive SameEnd (related : α → α → Prop) : Except ε α → Except ε α → Prop
  | fault (fault : ε) : SameEnd related (.error fault) (.error fault)
  | value {a b : α} (hrelated : related a b) : SameEnd related (.ok a) (.ok b)

/-- Two computations in a row end alike if each step does. This carries `SameEnd` through
`Seating.take`, step by step. -/
theorem SameEnd.bind {related : α → α → Prop} {related' : β → β → Prop} {x y : Except ε α}
    {f g : α → Except ε β} (hfirst : SameEnd related x y)
    (hnext : ∀ a b, related a b → SameEnd related' (f a) (g b)) :
    SameEnd related' (x >>= f) (y >>= g) := by
  cases hfirst with
  | fault fault => exact .fault fault
  | value hrelated => exact hnext _ _ hrelated

/-- From `SameEnd` to runs: those that go on alike from ends that are alike are the same. -/
theorem SameEnd.ofExcept_bind {related : α → α → Prop} {x y : Except Fault α} {f g : α → Run β}
    (hends : SameEnd related x y) (hnext : ∀ a b, related a b → f a = g b) :
    (Run.ofExcept x >>= f) = (Run.ofExcept y >>= g) := by
  cases hends with
  | fault fault => rfl
  | value hrelated => exact hnext _ _ hrelated

namespace Seating

/-- What two takings of accounts for the same slots leave: seatings with `Seating.Alike`, and the
accounts behind the slots. -/
def TakenAlike (slots : List Slot) (accounts others : List Account)
    (mine theirs : Seating × List Account) : Prop :=
  mine.1.Alike theirs.1 ∧ mine.2 = accounts.drop slots.length ∧ theirs.2 = others.drop slots.length

/-- Induction on `AgreeOn`: each slot takes one account on both sides, and what it finds wrong with
the one it finds wrong with the other, by `Slot.accept_alike`. -/
theorem sameEnd_acceptAll {slots : List Slot} {accounts others : List Account}
    (hagree : AgreeOn slots accounts others)
    (hkinds : ∀ slot ∈ slots, slot.kind ≠ .optionalTokens) (program : Pubkey) :
    SameEnd (TakenAlike slots accounts others) (acceptAll program slots accounts)
      (acceptAll program slots others) := by
  induction hagree with
  | rest accounts others => exact .value ⟨.nil, rfl, rfl⟩
  | missing slots =>
    -- No accounts are left: either all slots are done, or the first one is missing its account.
    cases slots with
    | nil => exact .value ⟨.nil, rfl, rfl⟩
    | cons slot slots => exact .fault _
  | @seen slot slots a b accounts others hsees _ ih =>
    rw [List.forall_mem_cons] at hkinds
    simp only [acceptAll]
    rw [Slot.accept_alike hsees hkinds.1]
    cases slot.accept program b with
    | error fault => exact .fault fault
    | ok tokens =>
      refine (ih hkinds.2).bind fun mine theirs htaken => .value ?_
      obtain ⟨hseats, hmine, htheirs⟩ := htaken
      exact ⟨.cons ⟨rfl, hsees.toAlike⟩ hseats, hmine, htheirs⟩

theorem constrainAll_alike {mine theirs : Seating} (halike : mine.Alike theirs) :
    mine.constrainAll = theirs.constrainAll := by
  induction halike with
  | nil => rfl
  | @cons seat other _ _ hseat _ ih =>
    obtain ⟨hslot, haccount⟩ := hseat
    simp only [constrainAll]
    rw [hslot, Slot.constrain_alike haccount, ih]

/-- **Agreeing accounts are taken alike**, or refused with the same fault. First they are all
accepted, by `sameEnd_acceptAll`, and then the constraints are looked at. -/
theorem sameEnd_take {slots : List Slot} {accounts others : List Account}
    (hagree : AgreeOn slots accounts others)
    (hkinds : ∀ slot ∈ slots, slot.kind ≠ .optionalTokens) (program : Pubkey) :
    SameEnd (TakenAlike slots accounts others) (take program slots accounts)
      (take program slots others) := by
  refine (sameEnd_acceptAll hagree hkinds program).bind fun mine theirs htaken => ?_
  show SameEnd _ (mine.1.constrainAll >>= fun _ => _) (theirs.1.constrainAll >>= fun _ => _)
  -- From here on both sides look at the same parts and flags.
  rw [constrainAll_alike htaken.1]
  cases theirs.1.constrainAll with
  | error fault => exact .fault fault
  | ok u => exact .value htaken

/-- In alike seatings `Seating.account` finds alike accounts, since the parts stand in the same
order. -/
theorem account_alike {mine theirs : Seating} (halike : mine.Alike theirs) (role : Role) :
    (mine.account role).Alike (theirs.account role) := by
  induction halike with
  | nil => exact ⟨rfl, rfl, rfl, rfl⟩
  | @cons seat other _ _ hseat _ ih =>
    obtain ⟨hslot, haccount⟩ := hseat
    unfold Seating.account at ih ⊢
    by_cases hrole : other.slot.role = role
    · rw [List.find?_cons_of_pos (by simp [hslot, hrole]),
        List.find?_cons_of_pos (by simp [hrole])]
      exact haccount
    · rw [List.find?_cons_of_neg (by simp [hslot, hrole]),
        List.find?_cons_of_neg (by simp [hrole])]
      exact ih

theorem key_alike {mine theirs : Seating} (halike : mine.Alike theirs) : mine.key = theirs.key :=
  funext fun role => (account_alike halike role).key

/-- The accounts in the same parts are alike one by one, by `account_alike`. -/
theorem map_account_alike {mine theirs : Seating} (halike : mine.Alike theirs)
    (roles : List Role) :
    List.Forall₂ Account.Alike (roles.map mine.account) (roles.map theirs.account) := by
  rw [List.forall₂_map_left_iff, List.forall₂_map_right_iff, List.forall₂_same]
  exact fun role _ => account_alike halike role

end Seating

/-! ## Calls -/

/-- `Account.toMeta` keeps the key and the flags, so alike accounts have the same one. -/
theorem map_toMeta_alike {infos others : List Account}
    (halike : List.Forall₂ Account.Alike infos others) :
    infos.map Account.toMeta = others.map Account.toMeta := by
  induction halike with
  | nil => rfl
  | cons hfirst _ ih =>
    rw [List.map_cons, List.map_cons, ih, Account.toMeta, Account.toMeta, hfirst.key,
      hfirst.signer, hfirst.writable]

/-- A key finds alike accounts among alike accounts, or none in either. Induction on the accounts,
whose keys are the same place by place. -/
theorem find?_key_alike {infos others : List Account}
    (halike : List.Forall₂ Account.Alike infos others) (key : Pubkey) :
    Option.Rel Account.Alike (infos.find? fun account => account.key = key)
      (others.find? fun account => account.key = key) := by
  induction halike with
  | nil => exact .none
  | @cons a b _ _ hfirst _ ih =>
    by_cases hkey : b.key = key
    · rw [List.find?_cons_of_pos (by simp [hfirst.key, hkey]),
        List.find?_cons_of_pos (by simp [hkey])]
      exact .some hfirst
    · rw [List.find?_cons_of_neg (by simp [hfirst.key, hkey]),
        List.find?_cons_of_neg (by simp [hkey])]
      exact ih

theorem namedAccounts_alike {infos others : List Account}
    (halike : List.Forall₂ Account.Alike infos others) (instruction : Instruction) :
    List.Forall₂ Account.Alike (instruction.namedAccounts infos)
      (instruction.namedAccounts others) := by
  unfold Instruction.namedAccounts
  induction instruction.accounts with
  | nil => exact .nil
  | cons named rest ih =>
    have hfound := find?_key_alike halike named.key
    simp only [List.filterMap_cons]
    -- What is named is looked up on both sides, and is found in both or in neither.
    revert hfound
    generalize infos.find? _ = found, others.find? _ = found'
    rintro (halike | _)
    · exact .cons ⟨halike.key, rfl, rfl, halike.executable⟩ ih
    · exact ih

/-- The dummy program, run by `Program.entry`, logs a key, and reads nothing else. -/
theorem Dummy.entry_alike {accounts others : List Account}
    (halike : List.Forall₂ Account.Alike accounts others) (id : Pubkey) (data : Bytes) :
    Dummy.program.entry id accounts data = Dummy.program.entry id others data := by
  have hagree : AgreeOn Dummy.slots accounts others :=
    .of_alike (by simp [Dummy.slots, Slot.readOnly]) halike
  have hlog : Dummy.logKey accounts = Dummy.logKey others := by
    have htake := Seating.sameEnd_take hagree (by simp [Dummy.slots, Slot.readOnly]) dummyProgram
    refine htake.ofExcept_bind fun mine theirs htaken => ?_
    dsimp only
    rw [Seating.key_alike htaken.1]
  unfold Program.entry Program.entryOn
  simp only [Dummy.program, hlog, Framework.withoutIdl]

/-- `invoke` with alike accounts is the same call with the same end. The callee sees alike accounts
too, which is `Dummy.entry_alike`. -/
theorem invoke_alike {infos others : List Account}
    (halike : List.Forall₂ Account.Alike infos others) (instruction : Instruction)
    (authority : Option RelayAuthority) :
    invoke instruction infos authority = invoke instruction others authority := by
  have hcallee : runCallee instruction infos = runCallee instruction others := by
    unfold runCallee
    rw [Dummy.entry_alike (namedAccounts_alike halike instruction)]
  unfold invoke
  rw [map_toMeta_alike halike, hcallee]

/-! ## Passing calls on -/

theorem AddressCheck.require_alike {mine theirs : Seating} (halike : mine.Alike theirs)
    (check : AddressCheck) : check.require mine = check.require theirs := by
  unfold AddressCheck.require
  rw [Seating.key_alike halike]

/-- `LendingCall.authorize` looks at keys, and at whether the owner signed. -/
theorem LendingCall.authorize_alike {mine theirs : Seating} (halike : mine.Alike theirs)
    (call : LendingCall) : call.authorize mine = call.authorize theirs := by
  -- `authorizeOwner` is all that looks at an account and not only at keys.
  have howner : ∀ role, authorizeOwner (mine.account role) (theirs.key .market) =
      authorizeOwner (theirs.account role) (theirs.key .market) := by
    intro role
    have haccount := Seating.account_alike halike role
    unfold authorizeOwner
    rw [haccount.signer, haccount.key]
  unfold LendingCall.authorize LendingRelay.authorize
  simp only [AddressCheck.require_alike halike, Seating.key_alike halike]
  unfold requireOwner
  simp only [howner]

theorem Notice.announce_alike {mine theirs : Seating} (halike : mine.Alike theirs)
    (notice : Notice) (authority : Option RelayAuthority) :
    notice.announce mine authority = notice.announce theirs authority := by
  unfold Notice.announce Notice.event
  rw [Seating.key_alike halike]

theorem LendingCall.forward_alike {mine theirs : Seating} (halike : mine.Alike theirs)
    (call : LendingCall) : call.forward mine = call.forward theirs := by
  have hinvoke := invoke_alike (Seating.map_account_alike halike call.infos)
  unfold LendingCall.forward LendingCall.passedAlong
  simp only [authorize_alike halike, Seating.key_alike halike, hinvoke,
    Notice.announce_alike halike]

theorem Custody.forwardAccrued_alike {accrual accrual' action action' : Seating}
    (haccrual : accrual.Alike accrual') (haction : action.Alike action') (move : Custody) :
    move.forwardAccrued accrual action = move.forwardAccrued accrual' action' := by
  have hinfos := List.rel_append
    (Seating.map_account_alike haccrual LendingCall.accrueInterest.infos)
    (Seating.map_account_alike haction (LendingCall.custody move).infos)
  have hinvoke := invoke_alike hinfos
  unfold Custody.forwardAccrued TwoStep.execute LendingCall.passedAlong
  simp only [LendingCall.authorize_alike haccrual, LendingCall.authorize_alike haction,
    Seating.key_alike haccrual, Seating.key_alike haction, hinvoke,
    Notice.announce_alike haction]

/-! ## Calls of the relay -/

namespace Relay

/-- Runs that take agreeing accounts and go on alike are the same: `Seating.sameEnd_take`, with the
accounts left over handed on. -/
theorem takeSeats_bind_alike {slots : List Slot} {accounts others : List Account}
    {next next' : Seating × List Account → Run α} (hagree : AgreeOn slots accounts others)
    (hkinds : ∀ slot ∈ slots, slot.kind ≠ .optionalTokens)
    (hnext : ∀ mine theirs : Seating, mine.Alike theirs →
      next (mine, accounts.drop slots.length) = next' (theirs, others.drop slots.length)) :
    (takeSeats slots accounts >>= next) = (takeSeats slots others >>= next') := by
  refine (Seating.sameEnd_take hagree hkinds relayProgram).ofExcept_bind ?_
  rintro ⟨mine, _⟩ ⟨theirs, _⟩ ⟨halike, rfl, rfl⟩
  exact hnext mine theirs halike

/-- Serving a request that is not for a report looks at nothing else than `AgreeOn` compares. One
case per kind of request; a composed movement takes its accounts in two groups, so the agreement is
split twice. -/
theorem serve_agree {request : Request} (hrequest : ∀ report, request ≠ .report report)
    {accounts others : List Account} (hagree : AgreeOn request.slotGroups.flatten accounts others) :
    serve request accounts = serve request others := by
  cases request with
  | report report => exact absurd rfl (hrequest report)
  | forward call =>
    obtain ⟨hagree, -⟩ := hagree.append
    exact takeSeats_bind_alike hagree (fun _ hslot => (call.kind_of_mem_slots hslot).1)
      fun _ _ halike => call.forward_alike halike
  | accrueThen move =>
    obtain ⟨haccrual, haction⟩ := hagree.append
    obtain ⟨haction, -⟩ := haction.append
    refine takeSeats_bind_alike haccrual
      (fun _ hslot => (LendingCall.accrueInterest.kind_of_mem_slots hslot).1) ?_
    intro accrual accrual' hseats
    refine takeSeats_bind_alike haction
      (fun _ hslot => ((LendingCall.custody move).kind_of_mem_slots hslot).1) ?_
    intro action action' hseats'
    exact move.forwardAccrued_alike hseats hseats'
  | callDummy =>
    obtain ⟨hagree, -⟩ := hagree.append
    refine takeSeats_bind_alike hagree (by simp [Slot.readOnly, Slot.dummyProgram]) ?_
    intro mine theirs halike
    show callDummy mine = callDummy theirs
    unfold callDummy
    rw [Seating.key_alike halike]
    exact invoke_alike (Seating.map_account_alike halike [.dummyAcc, .dummyProgram]) _ _

/-- **Relaying is blind to the contents of accounts.** Unless a report is asked for, two calls with
the same request and with agreeing accounts end with the same result and leave the same trace.
Owners, lamports and data of the accounts, further accounts and bytes behind the request do not
count. By `entry_eq` the entry comes down to `serve`, which is `serve_agree`. -/
theorem outcome_blind (framework : Framework) {request : Request}
    (hrequest : ∀ report, request ≠ .report report) {accounts others : List Account}
    (hagree : AgreeOn request.slotGroups.flatten accounts others) (id : Pubkey)
    (tail otherTail : Bytes) (script : Script) :
    outcome framework id accounts (request.data ++ tail) script =
      outcome framework id others (request.data ++ otherTail) script := by
  unfold outcome
  by_cases hid : id = relayProgram
  · rw [hid, entry_eq, entry_eq, serve_agree hrequest hagree]
  · rw [Program.entryOn_of_id_ne framework hid, Program.entryOn_of_id_ne framework hid]

/-- The accounts for `LendingCall.initDepositAccount`, all with the same contents. -/
def openingAccounts (owner : Pubkey) (lamports : UInt64) (data : Bytes) : List Account :=
  let account (key : Pubkey) : Account := { key, owner, lamports, data }
  let program (key : Pubkey) : Account := { account key with executable := true }
  [account mainMarket,
   account (.ofNat 0x4a0746a98f83421ffac6cca9d8e0cebda8b854a5e3fc182c0d3437d96f74ea2e),
   account (.ofNat 3), account (.ofNat 4), account (.ofNat 6),
   { account (.ofNat 5) with signer := true, writable := true },
   { account (.ofNat 0xf97670773f62dde359689c0c987f5f7f897b0cabb17c043061e8a1ea963df279) with
     writable := true },
   program lendingProgram, program .tokenProgram, program .systemProgram, account .rentSysvar]

/-- `LendingCall.initDepositAccount` takes the rent parameters, so two calls have to agree on
whether they are long enough, and on nothing else that the accounts hold. Here both open the
account. -/
theorem outcome_blind_opening :
    let opening := Request.forward (.initDepositAccount 255)
    let accounts := openingAccounts .systemProgram 1 (List.replicate 17 0)
    let others := openingAccounts lendingProgram 900 (List.replicate 40 1) ++ [{ key := .ofNat 9 }]
    AgreeOn opening.slotGroups.flatten accounts others ∧
      outcome .withoutIdl relayProgram accounts (opening.data ++ []) [none] =
        outcome .withoutIdl relayProgram others (opening.data ++ [0xff, 0x2a]) [none] ∧
      (outcome .withoutIdl relayProgram others (opening.data ++ [0xff, 0x2a]) [none]).result =
        .ok () := by
  intro opening accounts others
  have hagree : AgreeOn opening.slotGroups.flatten accounts others := by
    -- Ten accounts of which only key and flags count, and the rent parameters at the end.
    iterate 10 refine .seen ⟨⟨rfl, rfl, rfl, rfl⟩, nofun⟩ ?_
    exact .seen ⟨⟨rfl, rfl, rfl, rfl⟩, fun _ _ => by decide⟩ (.rest _ _)
  have hrequest : ∀ report, opening ≠ .report report := fun _ h => nomatch h
  have hsame := outcome_blind .withoutIdl hrequest hagree relayProgram [] [0xff, 0x2a] [none]
  have hopened : (outcome .withoutIdl relayProgram accounts (opening.data ++ []) [none]).result =
      .ok () := by
    decide +kernel
  exact ⟨hagree, hsame, hsame ▸ hopened⟩

end Relay

end LendingRelay
