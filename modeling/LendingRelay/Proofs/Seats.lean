import LendingRelay.Seating
import LendingRelay.Network

/-!
# Seats in closed form

Taking accounts walks over the slots twice and may stop anywhere. When it does not stop, the result
is just the slots paired with the front of the account list. So a statement about a seated
instruction can name its accounts directly, by slot and position, with no walk in sight.

* `Seating.take_eq_ok_iff`: taking succeeds exactly when every slot gets an account that fits, and
  then gives `Seating.seat` and the accounts behind it.
* `Seating.account_seat`: the account in a part is the one at the position of its slot.
* `Slot.Fits.writable`, `Slot.Fits.key_eq`: what a fitting account is known to be.
* `Seating.seat_append`, `Seating.fits_append_iff`: accounts behind the declared ones do not matter.
-/

namespace LendingRelay

theorem except_bind_eq_ok_iff {x : Except ε α} {f : α → Except ε β} {b : β} :
    (x >>= f) = .ok b ↔ ∃ a, x = .ok a ∧ f a = .ok b := by
  cases x with
  | error e =>
    refine ⟨fun h => ?_, fun hall => ?_⟩
    · cases h
    · obtain ⟨a, h, _⟩ := hall
      cases h
  | ok a =>
    refine ⟨fun h => ?_, fun hall => ?_⟩
    · exact ⟨a, rfl, h⟩
    · obtain ⟨a', ha, h⟩ := hall
      cases ha
      exact h

/-- With distinct labels, `find?` by the label of a member finds that member. Induction on the list:
an earlier hit would be a second member with the same label. -/
theorem find?_label [DecidableEq β] {label : α → β} {members : List α}
    (hdistinct : (members.map label).Nodup) {a : α} (hmem : a ∈ members) :
    members.find? (fun b => label b = label a) = some a := by
  induction members with
  | nil => cases hmem
  | cons first members ih =>
    rw [List.map_cons, List.nodup_cons] at hdistinct
    rcases List.mem_cons.mp hmem with rfl | hrest
    · simp
    · have hne : label first ≠ label a := by
        intro heq
        apply hdistinct.1
        rw [heq]
        exact List.mem_map_of_mem hrest
      rw [List.find?_cons_of_neg (by simpa using hne)]
      exact ih hdistinct.2 hrest

/-! ## Accounts that fit -/

/-- The account passes both checks of the slot: `Slot.accept` when it is taken, and `Slot.constrain`
once all accounts are taken. -/
structure Slot.Fits (program : Pubkey) (slot : Slot) (account : Account) : Prop where
  accepted : ∃ tokens, slot.accept program account = .ok tokens
  constrained : slot.constrain account = .ok ()

/-- The key that a `SlotKind` prescribes for its account, if it prescribes one. -/
def SlotKind.key? : SlotKind → Option Pubkey
  | .unchecked => none
  | .pinned key _ => some key
  | .program key => some key
  | .rent => some .rentSysvar
  | .optionalTokens => none

/-- An account that fits a writable slot is writable, since `Slot.constrain` looks at it. -/
theorem Slot.Fits.writable {program : Pubkey} {slot : Slot} {account : Account}
    (hfits : slot.Fits program account) (hslot : slot.writable = true) :
    account.writable = true := by
  have hconstrained := hfits.constrained
  unfold Slot.constrain at hconstrained
  cases haccount : account.writable with
  | true => rfl
  | false =>
    rw [if_pos ⟨hslot, by simp [haccount]⟩] at hconstrained
    cases hconstrained

/-- An account that fits a slot with a `SlotKind.key?` has that key. `Slot.constrain` looks at
pinned keys, `Slot.accept` at programs and at the rent parameters. -/
theorem Slot.Fits.key_eq {program key : Pubkey} {slot : Slot} {account : Account}
    (hfits : slot.Fits program account) (hkey : slot.kind.key? = some key) : account.key = key := by
  obtain ⟨tokens, haccepted⟩ := hfits.accepted
  have hconstrained := hfits.constrained
  unfold Slot.accept at haccepted
  unfold Slot.constrain at hconstrained
  -- Each kind has its key checked in one place only, so the other check is left unused.
  cases hkind : slot.kind with
  | unchecked => simp [hkind, SlotKind.key?] at hkey
  | optionalTokens => simp [hkind, SlotKind.key?] at hkey
  | pinned fixed error =>
    have hfixed : fixed = key := by simpa [hkind, SlotKind.key?] using hkey
    rw [hkind] at hconstrained
    split at hconstrained
    · cases hconstrained
    · dsimp only at hconstrained
      split at hconstrained
      · next heq => rw [heq, hfixed]
      · cases hconstrained
  | program fixed =>
    have hfixed : fixed = key := by simpa [hkind, SlotKind.key?] using hkey
    rw [hkind] at haccepted
    dsimp only at haccepted
    split at haccepted
    · cases haccepted
    · next hne => rw [← hfixed]; exact Decidable.not_not.mp hne
  | rent =>
    have hfixed : Pubkey.rentSysvar = key := by simpa [hkind, SlotKind.key?] using hkey
    rw [hkind] at haccepted
    dsimp only at haccepted
    split at haccepted
    · next hrent => rw [← hfixed]; exact hrent.1
    · cases haccepted

/-! ## The seating as a pairing -/

/-- A slot with its account, and with what `Slot.accept` reads from it. -/
def Slot.seat (program : Pubkey) (slot : Slot) (account : Account) : Seat :=
  { slot, account, tokens := (slot.accept program account).toOption.join }

namespace Seating

/-- The slots paired with the front of the account list. By `take_eq_ok_iff` this is all that
`Seating.take` ever gives. -/
def seat (program : Pubkey) (slots : List Slot) (accounts : List Account) : Seating :=
  List.zipWith (Slot.seat program) slots accounts

/-- Every slot gets an account, and each account fits its slot by `Slot.Fits`. -/
structure Fits (program : Pubkey) (slots : List Slot) (accounts : List Account) : Prop where
  enough : slots.length ≤ accounts.length
  each : ∀ slot account, (slot, account) ∈ slots.zip accounts → slot.Fits program account

theorem acceptAll_eq_ok_iff (program : Pubkey) (slots : List Slot) (accounts : List Account)
    (seating : Seating) (rest : List Account) :
    acceptAll program slots accounts = .ok (seating, rest) ↔
      (slots.length ≤ accounts.length ∧
        ∀ slot account, (slot, account) ∈ slots.zip accounts →
          ∃ tokens, slot.accept program account = .ok tokens) ∧
      seating = seat program slots accounts ∧ rest = accounts.drop slots.length := by
  -- Induction on the slots: each takes one account, so both lists get shorter together.
  induction slots generalizing accounts seating rest with
  | nil => simp [acceptAll, seat, eq_comm]
  | cons slot slots ih =>
    cases accounts with
    | nil => simp [acceptAll]
    | cons account accounts =>
      simp only [acceptAll, except_bind_eq_ok_iff, Prod.exists, ih]
      refine ⟨fun hok => ?_, fun hall => ?_⟩
      · obtain ⟨tokens, haccept, seating', rest', ⟨⟨hlength, heach⟩, rfl, rfl⟩, hresult⟩ := hok
        cases hresult
        refine ⟨⟨Nat.succ_le_succ hlength, ?_⟩, ?_, rfl⟩
        · intro s a hmem
          rcases List.mem_cons.mp hmem with hhead | htail
          · cases hhead
            exact ⟨tokens, haccept⟩
          · exact heach s a htail
        · simp [seat, Slot.seat, haccept, Except.toOption]
      · obtain ⟨⟨hlength, heach⟩, rfl, rfl⟩ := hall
        obtain ⟨tokens, haccept⟩ := heach slot account (List.mem_cons_self ..)
        refine ⟨tokens, haccept, _, _, ⟨⟨Nat.le_of_succ_le_succ hlength, ?_⟩, rfl, rfl⟩, ?_⟩
        · intro s a hmem
          exact heach s a (List.mem_cons_of_mem _ hmem)
        · simp [seat, Slot.seat, haccept, Except.toOption, pure, Except.pure]

theorem constrainAll_seat_eq_ok_iff (program : Pubkey) (slots : List Slot)
    (accounts : List Account) :
    constrainAll (seat program slots accounts) = .ok () ↔
      ∀ slot account, (slot, account) ∈ slots.zip accounts → slot.constrain account = .ok () := by
  -- The same induction as for `acceptAll`, one check instead of a reading.
  induction slots generalizing accounts with
  | nil => simp [seat, constrainAll]
  | cons slot slots ih =>
    cases accounts with
    | nil => simp [seat, constrainAll]
    | cons account accounts =>
      show (slot.constrain account >>= fun _ => constrainAll (seat program slots accounts)) = _ ↔ _
      simp only [except_bind_eq_ok_iff, ih, List.zip_cons_cons, List.mem_cons, Prod.mk.injEq]
      refine ⟨fun hok s a hmem => ?_, fun heach => ?_⟩
      · obtain ⟨_, hhead, htail⟩ := hok
        rcases hmem with ⟨rfl, rfl⟩ | hrest
        · exact hhead
        · exact htail s a hrest
      · exact ⟨(), heach slot account (.inl ⟨rfl, rfl⟩), fun s a hmem => heach s a (.inr hmem)⟩

/-- **Taking accounts is pairing them.** `Seating.take` succeeds exactly when the accounts fit, and
then gives `seat` and the accounts behind it. -/
theorem take_eq_ok_iff (program : Pubkey) (slots : List Slot) (accounts : List Account)
    (seating : Seating) (rest : List Account) :
    take program slots accounts = .ok (seating, rest) ↔
      Fits program slots accounts ∧
        seating = seat program slots accounts ∧ rest = accounts.drop slots.length := by
  simp only [take, except_bind_eq_ok_iff, Prod.exists, acceptAll_eq_ok_iff]
  -- The two walks of `take` become the two halves of `Slot.Fits`.
  refine ⟨fun hok => ?_, fun hall => ?_⟩
  · obtain ⟨seating', rest', ⟨⟨hlength, haccept⟩, rfl, rfl⟩, _, hconstrain, hresult⟩ := hok
    cases hresult
    rw [constrainAll_seat_eq_ok_iff] at hconstrain
    exact ⟨⟨hlength, fun slot account hmem =>
      ⟨haccept slot account hmem, hconstrain slot account hmem⟩⟩, rfl, rfl⟩
  · obtain ⟨hfits, rfl, rfl⟩ := hall
    refine ⟨_, _, ⟨⟨hfits.enough, fun slot account hmem => (hfits.each slot account hmem).accepted⟩,
      rfl, rfl⟩, (), ?_, rfl⟩
    rw [constrainAll_seat_eq_ok_iff]
    exact fun slot account hmem => (hfits.each slot account hmem).constrained

theorem take_of_fits {program : Pubkey} {slots : List Slot} {accounts : List Account}
    (hfits : Fits program slots accounts) :
    take program slots accounts =
      .ok (seat program slots accounts, accounts.drop slots.length) :=
  (take_eq_ok_iff ..).mpr ⟨hfits, rfl, rfl⟩

theorem take_of_not_fits {program : Pubkey} {slots : List Slot} {accounts : List Account}
    (hfits : ¬Fits program slots accounts) :
    ∃ fault, take program slots accounts = .error fault := by
  cases htake : take program slots accounts with
  | error fault => exact ⟨fault, rfl⟩
  | ok taken => exact absurd ((take_eq_ok_iff ..).mp htake).1 hfits

/-! ## Accounts by part

An instruction gives each part once, so looking a part up in the seats finds the account at the
position of its slot. -/

theorem seat_eq_map (program : Pubkey) (slots : List Slot) (accounts : List Account) :
    seat program slots accounts =
      (slots.zip accounts).map fun pair => pair.1.seat program pair.2 := by
  rw [seat, List.zip, List.map_zipWith]

theorem account_seat (program : Pubkey) {slots : List Slot} {accounts : List Account}
    {slot : Slot} {account : Account} (hroles : (slots.map Slot.role).Nodup)
    (henough : slots.length ≤ accounts.length) (hmem : (slot, account) ∈ slots.zip accounts) :
    (seat program slots accounts).account slot.role = account := by
  -- The seats carry the parts of their slots, so their parts are distinct as well.
  have hseats : (seat program slots accounts).map (fun seat => seat.slot.role) =
      slots.map Slot.role := by
    conv => rhs; rw [← List.map_fst_zip henough]
    rw [seat_eq_map, List.map_map, List.map_map]
    rfl
  have hseat : slot.seat program account ∈ seat program slots accounts := by
    rw [seat_eq_map]
    exact List.mem_map_of_mem hmem
  have hfind := find?_label (hseats ▸ hroles) hseat
  unfold Seating.account
  rw [show slot.role = (slot.seat program account).slot.role from rfl, hfind]
  rfl

theorem getElem_mem_zip {slots : List Slot} {accounts : List Account} {i : Nat}
    (hslots : i < slots.length) (haccounts : i < accounts.length) :
    (slots[i], accounts[i]) ∈ slots.zip accounts := by
  rw [List.mem_iff_getElem]
  refine ⟨i, ?_, List.getElem_zip⟩
  rw [List.length_zip]
  omega

/-- Every declared slot is paired with the account that `Seating.account` finds for its role,
provided that no role is declared twice. -/
theorem mem_zip_account (program : Pubkey) {slots : List Slot} {accounts : List Account}
    {slot : Slot} (hroles : (slots.map Slot.role).Nodup) (henough : slots.length ≤ accounts.length)
    (hslot : slot ∈ slots) :
    (slot, (seat program slots accounts).account slot.role) ∈ slots.zip accounts := by
  -- By position: the pair at the place of the slot is the one that the lookup finds.
  obtain ⟨i, hi, rfl⟩ := List.mem_iff_getElem.mp hslot
  have hmem := getElem_mem_zip hi (Nat.lt_of_lt_of_le hi henough)
  rw [account_seat program hroles henough hmem]
  exact hmem

/-- The account at the position of a slot plays the role of that slot. This is how places in an
account list and `Role`s meet. -/
theorem key_at (program : Pubkey) {slots : List Slot} {accounts : List Account} {i : Nat}
    {slot : Slot} (hroles : (slots.map Slot.role).Nodup) (henough : slots.length ≤ accounts.length)
    (hslot : slots[i]? = some slot) :
    accounts[i]?.map Account.key = some ((seat program slots accounts).key slot.role) := by
  obtain ⟨hi, rfl⟩ := List.getElem?_eq_some_iff.mp hslot
  have hi' : i < accounts.length := Nat.lt_of_lt_of_le hi henough
  rw [List.getElem?_eq_getElem hi', Option.map_some, Seating.key,
    account_seat program hroles henough (getElem_mem_zip hi hi')]

/-! ## Accounts behind the declared ones -/

theorem zip_append_of_length_le {slots : List Slot} {accounts : List Account} (more : List Account)
    (henough : slots.length ≤ accounts.length) :
    slots.zip (accounts ++ more) = slots.zip accounts := by
  -- Both lists get shorter together until the slots end; only then `more` would be reached.
  induction slots generalizing accounts with
  | nil => rfl
  | cons slot slots ih =>
    cases accounts with
    | nil => exact absurd henough (Nat.not_succ_le_zero _)
    | cons account accounts =>
      rw [List.cons_append, List.zip_cons_cons, List.zip_cons_cons,
        ih (Nat.le_of_succ_le_succ henough)]

/-- Accounts behind the declared ones take no seat: `zip` stops with the slots. -/
theorem seat_append (program : Pubkey) {slots : List Slot} {accounts : List Account}
    (more : List Account) (henough : slots.length ≤ accounts.length) :
    seat program slots (accounts ++ more) = seat program slots accounts := by
  rw [seat_eq_map, zip_append_of_length_le more henough, ← seat_eq_map]

theorem fits_append_iff (program : Pubkey) {slots : List Slot} {accounts : List Account}
    (more : List Account) (henough : slots.length ≤ accounts.length) :
    Fits program slots (accounts ++ more) ↔ Fits program slots accounts := by
  refine ⟨fun hfits => ?_, fun hfits => ?_⟩
  · refine ⟨henough, fun slot account hmem => hfits.each slot account ?_⟩
    rw [zip_append_of_length_le more henough]
    exact hmem
  · refine ⟨?_, fun slot account hmem => hfits.each slot account ?_⟩
    · rw [List.length_append]
      omega
    · rw [← zip_append_of_length_le more henough]
      exact hmem

end Seating

end LendingRelay
