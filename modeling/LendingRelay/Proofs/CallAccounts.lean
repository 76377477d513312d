import LendingRelay.Lending.Instruction
import LendingRelay.Lending.Policy
import LendingRelay.Lending.Slots
import LendingRelay.Proofs.Seats
import LendingRelay.Relay.Forward

/-!
# Declared accounts and the accounts of a call

The accounts that the relay declares for a call, and the accounts that the call itself names, are
written down separately, and so is the account whose consent a call needs. Here the tables are laid
next to each other, once for all calls; everything about keys, flags and accounts passed along then
follows for seats that fit.

* `LendingCall.accounts_eq_slots`: a call names its declared accounts in order, less those that stay
  behind, and each with the declared writability.
* `LendingCall.signers_eq_owner`: the only account that a call wants signed is its owner's.
* `LendingCall.metas_eq_supplied`: with the keys of fitting seats, the instruction names the
  supplied accounts.
* `LendingCall.mem_infos_of_passesOn`: every account of a call is among those passed along with it.
-/

namespace LendingRelay

/-! ## What goes into a call -/

/-- How a call names the account of a slot: by the part it plays, or by its key where that is always
the same. `LendingCall.accounts_eq_slots` shows that the calls do so. -/
def Slot.target (slot : Slot) : Target :=
  match slot.kind with
  | .unchecked => .role slot.role
  | .optionalTokens => .role slot.role
  | .pinned _ _ => .callee
  | .program key => .fixed key
  | .rent => .fixed .rentSysvar

namespace LendingCall

/-- Whether a call takes the lending program among its own accounts. -/
def namesCallee : LendingCall → Bool
  | custody ⟨.withdraw, some _, _⟩ => true
  | _ => false

/-- Whether the account in a declared part goes into the call. The lending program and the
`LendingCall.seedRoles` stay behind. -/
def passesOn (call : LendingCall) (role : Role) : Bool :=
  if role = .lendingProgram then call.namesCallee else role ∉ call.seedRoles

/-! ## The tables agree

Each of these compares two tables entry by entry, so each is a case split on the call. -/

theorem accounts_eq_slots (call : LendingCall) :
    call.accounts.map (fun account => (account.target, account.writable)) =
      (call.slots.filter fun slot => call.passesOn slot.role).map
        fun slot => (slot.target, slot.writable) := by
  cases call with
  | custody move =>
    obtain ⟨direction, bump, amount⟩ := move
    cases direction <;> cases bump <;> rfl
  | _ => rfl

theorem signers_eq_owner (call : LendingCall) :
    (call.accounts.filter CallAccount.signer).map CallAccount.target =
      call.ownerRole?.toList.map .role := by
  cases call with
  | custody move =>
    obtain ⟨direction, bump, amount⟩ := move
    cases direction <;> cases bump <;> rfl
  | _ => rfl

theorem nodup_roles (call : LendingCall) : (call.slots.map Slot.role).Nodup := by
  cases call with
  | custody move =>
    obtain ⟨direction, bump, amount⟩ := move
    cases direction <;>
      simp [slots, Direction.counterpart, Slot.readOnly, Slot.written, Slot.lendingProgram,
        Slot.tokenProgram]
  | _ =>
    simp [slots, Slot.readOnly, Slot.written, Slot.lendingProgram, Slot.tokenProgram,
      Slot.systemProgram, Slot.rent]

/-- The market comes first in `LendingCall.accounts`. -/
theorem market_first (call : LendingCall) :
    call.accounts.head?.map CallAccount.target = some (.role .market) := by
  cases call with
  | custody move =>
    obtain ⟨direction, bump, amount⟩ := move
    cases direction <;> cases bump <;> rfl
  | _ => rfl

/-- `Slot.lendingProgram` is always declared. -/
theorem lendingProgram_mem_slots (call : LendingCall) : Slot.lendingProgram ∈ call.slots := by
  cases call <;> simp [slots]

/-- The part of `LendingCall.ownerRole?` is a declared one. -/
theorem owner_mem_slots (call : LendingCall) {role : Role} (hrole : call.ownerRole? = some role) :
    ∃ slot ∈ call.slots, slot.role = role := by
  cases call <;> cases hrole <;> simp [slots, Slot.written, Slot.readOnly]

/-- The only key that is pinned is that of the lending program, and no account may be left out. This
is why `Slot.target` may name a pinned account as the callee. -/
theorem kind_of_mem_slots (call : LendingCall) {slot : Slot} (hslot : slot ∈ call.slots) :
    slot.kind ≠ .optionalTokens ∧
      ∀ key error, slot.kind = .pinned key error → key = LendingRelay.lendingProgram := by
  have hall : ∀ slot ∈ call.slots, slot.kind = .unchecked ∨ slot = .lendingProgram ∨
      slot = .tokenProgram ∨ slot = .systemProgram ∨ slot = .rent := by
    cases call <;> simp [slots, Slot.written, Slot.readOnly]
  rcases hall slot hslot with h | rfl | rfl | rfl | rfl
  · rw [h]
    exact ⟨by simp, by simp⟩
  all_goals simp [Slot.lendingProgram, Slot.tokenProgram, Slot.systemProgram, Slot.rent, eq_comm]

/-! ## Seats of a call -/

/-- The accounts of a caller seated as `LendingCall.slots` declares them. -/
abbrev seats (call : LendingCall) (accounts : List Account) : Seating :=
  Seating.seat relayProgram call.slots accounts

/-- The accounts of a caller pass every check of the declared slots. -/
abbrev Fits (call : LendingCall) (accounts : List Account) : Prop :=
  Seating.Fits relayProgram call.slots accounts

/-- The account at the place of a declared part plays that part, by `nodup_roles`. -/
theorem key_at {call : LendingCall} {accounts : List Account} (hfits : call.Fits accounts)
    (i : Nat) (slot : Slot) (hslot : call.slots[i]? = some slot) :
    accounts[i]?.map Account.key = some ((call.seats accounts).key slot.role) :=
  Seating.key_at relayProgram call.nodup_roles hfits.enough hslot

/-! ## Keys and flags of a call

The slots are paired with the accounts of the caller. A call takes its keys from the seats, so in
the end it names the paired accounts. -/

/-- The declared slots with what was supplied for them, for the parts that go into the call by
`passesOn`. -/
def supplied (call : LendingCall) (accounts : List Account) : List (Slot × Account) :=
  (call.slots.zip accounts).filter fun pair => call.passesOn pair.1.role

/-- Under fitting accounts, the `Slot.target` of a slot stands for the supplied account. -/
theorem target_key {call : LendingCall} {accounts : List Account} {slot : Slot} {account : Account}
    (hfits : call.Fits accounts)
    (hmem : (slot, account) ∈ call.slots.zip accounts) :
    slot.target.key LendingRelay.lendingProgram (call.seats accounts).key =
      account.key := by
  have hfit := hfits.each slot account hmem
  obtain ⟨hoptional, hpinned⟩ := call.kind_of_mem_slots (List.of_mem_zip hmem).1
  have hseat := Seating.account_seat relayProgram call.nodup_roles hfits.enough hmem
  -- A part is looked up among the seats; the other slots have a key of their own, and the account
  -- fits by having it.
  cases hkind : slot.kind with
  | unchecked =>
    rw [Slot.target, hkind]
    show (Seating.account _ slot.role).key = account.key
    rw [hseat]
  | pinned key error =>
    have hkey : slot.kind.key? = some key := by rw [hkind]; rfl
    rw [Slot.target, hkind, hfit.key_eq hkey]
    exact (hpinned key error hkind).symm
  | program key =>
    have hkey : slot.kind.key? = some key := by rw [hkind]; rfl
    rw [Slot.target, hkind, hfit.key_eq hkey]
    rfl
  | rent =>
    have hkey : slot.kind.key? = some .rentSysvar := by rw [hkind]; rfl
    rw [Slot.target, hkind, hfit.key_eq hkey]
    rfl
  | optionalTokens => exact absurd hkind hoptional

/-- **A call names the supplied accounts.** Their keys stand in the declared order, and an account
is passed on as writable exactly when it is declared writable. `accounts_eq_slots` leads from the
call's own table to the slots, `target_key` from the slots to what was supplied for them. -/
theorem metas_eq_supplied {call : LendingCall} {accounts : List Account}
    (hfits : call.Fits accounts) :
    (call.instruction LendingRelay.lendingProgram
        (call.seats accounts).key).accounts.map
        (fun named => (named.key, named.writable)) =
      (call.supplied accounts).map fun pair => (pair.2.key, pair.1.writable) := by
  obtain ⟨keys, hkeys⟩ : ∃ keys, keys = (call.seats accounts).key :=
    ⟨_, rfl⟩
  rw [← hkeys]
  -- From the accounts of the call over its slots to the pairs, and only there from names to keys.
  calc
    _ = (call.accounts.map fun account => (account.target, account.writable)).map
          (fun named => (named.1.key LendingRelay.lendingProgram keys, named.2)) := by
        simp [instruction, Function.comp_def]
    _ = (call.slots.filter fun slot => call.passesOn slot.role).map
          (fun slot => (slot.target.key LendingRelay.lendingProgram keys, slot.writable)) := by
        rw [accounts_eq_slots, List.map_map]
        rfl
    _ = (call.supplied accounts).map
          (fun pair => (pair.1.target.key LendingRelay.lendingProgram keys, pair.1.writable)) := by
        have hslots : call.slots = (call.slots.zip accounts).map Prod.fst :=
          (List.map_fst_zip hfits.enough).symm
        conv => lhs; rw [hslots]
        rw [supplied, List.filter_map, List.map_map]
        rfl
    _ = (call.supplied accounts).map fun pair => (pair.2.key, pair.1.writable) := by
        apply List.map_congr_left
        intro pair hpair
        rw [hkeys, target_key hfits (List.mem_filter.mp hpair).1]

/-- The only account that the instruction wants signed is the owner's, as `signers_eq_owner` says of
the table. -/
theorem signers_eq_supplied (call : LendingCall) (program : Pubkey) (keys : Role → Pubkey) :
    ((call.instruction program keys).accounts.filter AccountMeta.signer).map AccountMeta.key =
      call.ownerRole?.toList.map keys := by
  calc
    _ = ((call.accounts.filter CallAccount.signer).map CallAccount.target).map
          (Target.key program keys) := by
        rw [instruction, List.filter_map, List.map_map, List.map_map]
        rfl
    _ = call.ownerRole?.toList.map keys := by
        rw [signers_eq_owner, List.map_map]
        rfl

/-- The first account of the instruction is the market, by `market_first`. -/
theorem market_head (call : LendingCall) (program : Pubkey) (keys : Role → Pubkey) :
    (call.instruction program keys).accounts.head?.map AccountMeta.key = some (keys .market) := by
  have hhead := congrArg (Option.map (Target.key program keys)) call.market_first
  rw [instruction, List.head?_map, Option.map_map]
  rw [Option.map_map] at hhead
  exact hhead

/-! ## Accounts passed along -/

/-- `Seating.account` finds one of the caller's accounts for every declared part. -/
theorem account_mem {call : LendingCall} {accounts : List Account} {slot : Slot}
    (hfits : call.Fits accounts) (hslot : slot ∈ call.slots) :
    (call.seats accounts).account slot.role ∈ accounts :=
  (List.of_mem_zip (Seating.mem_zip_account relayProgram call.nodup_roles hfits.enough hslot)).2

theorem lendingProgram_key {call : LendingCall} {accounts : List Account}
    (hfits : call.Fits accounts) :
    (call.seats accounts).key .lendingProgram =
      LendingRelay.lendingProgram := by
  have hmem := Seating.mem_zip_account relayProgram call.nodup_roles hfits.enough
    call.lendingProgram_mem_slots
  have hkey : Slot.lendingProgram.kind.key? = some LendingRelay.lendingProgram := rfl
  exact (hfits.each _ _ hmem).key_eq hkey

theorem lendingProgram_mem_infos (call : LendingCall) : Role.lendingProgram ∈ call.infos :=
  List.mem_append_right _ (List.mem_singleton.mpr rfl)

/-- Only declared accounts are in `LendingCall.infos`. -/
theorem declared_of_mem_infos {call : LendingCall} {role : Role} (hrole : role ∈ call.infos) :
    ∃ slot ∈ call.slots, slot.role = role := by
  -- The lending program is put behind the others, whether or not it goes into the call.
  rcases List.mem_append.mp hrole with hfront | hlast
  · exact List.mem_map.mp (List.mem_filter.mp hfront).1
  · rw [List.mem_singleton] at hlast
    exact ⟨.lendingProgram, call.lendingProgram_mem_slots, hlast.symm⟩

/-- Whatever goes into a call by `passesOn` is in `LendingCall.infos`. -/
theorem mem_infos_of_passesOn {call : LendingCall} {slot : Slot} (hslot : slot ∈ call.slots)
    (hpasses : call.passesOn slot.role = true) : slot.role ∈ call.infos := by
  -- The lending program is always passed along, and seeds never are.
  by_cases hprogram : slot.role = .lendingProgram
  · rw [hprogram]
    exact call.lendingProgram_mem_infos
  · rw [passesOn, if_neg hprogram, decide_eq_true_eq] at hpasses
    apply List.mem_append_left
    rw [List.mem_filter]
    exact ⟨List.mem_map_of_mem hslot, by simp [hprogram, hpasses]⟩

theorem passedAlong_subset {call : LendingCall} {accounts : List Account}
    (hfits : call.Fits accounts) :
    ∀ account ∈ call.passedAlong (call.seats accounts),
      account ∈ accounts := by
  intro account hmem
  obtain ⟨role, hrole, rfl⟩ := List.mem_map.mp hmem
  obtain ⟨slot, hslot, rfl⟩ := declared_of_mem_infos hrole
  exact account_mem hfits hslot

/-- A supplied account that goes into a call is passed along with it, which is
`mem_infos_of_passesOn` seen from the accounts. -/
theorem mem_passedAlong {call : LendingCall} {accounts : List Account} {slot : Slot}
    {account : Account} (hfits : call.Fits accounts)
    (hmem : (slot, account) ∈ call.supplied accounts) :
    account ∈ call.passedAlong (call.seats accounts) := by
  obtain ⟨hzip, hpasses⟩ := List.mem_filter.mp hmem
  have hseat := Seating.account_seat relayProgram call.nodup_roles hfits.enough hzip
  have hrole := mem_infos_of_passesOn (List.of_mem_zip hzip).1 hpasses
  rw [← hseat]
  exact List.mem_map_of_mem hrole

end LendingCall

end LendingRelay
