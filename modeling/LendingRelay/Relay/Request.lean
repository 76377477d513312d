import LendingRelay.Dummy
import LendingRelay.Lending.Slots
import LendingRelay.Relay.Report

/-!
# Requests

What a caller can ask of the relay: a call passed on, a custody movement with the reserve accrued
first, a report, or a call of the dummy program. A request is written as the selector of its name
and its arguments.
-/

namespace LendingRelay

inductive Request
  | forward (call : LendingCall)
  | accrueThen (move : Custody)
  | report (report : Report)
  | callDummy
  deriving DecidableEq, Repr

namespace Request

def name : Request → String
  | forward call => call.name
  | accrueThen move => "accrue_" ++ move.name
  | report r => r.name
  | callDummy => "dummy_cpi"

def arguments : Request → Bytes
  | forward call => call.arguments
  | accrueThen move => move.arguments
  | report _ => []
  | callDummy => []

/-- The declared accounts. A request made of two calls declares the accounts of each. -/
def slotGroups : Request → List (List Slot)
  | forward call => [call.slots]
  | accrueThen move => [LendingCall.accrueInterest.slots, (LendingCall.custody move).slots]
  | report r => [r.slots]
  | callDummy => [[.readOnly .dummyAcc, .dummyProgram]]

/-- How a client names the account of a slot. An account left out is named by the relay's own id. -/
def clientMeta (keys : Role → Option Pubkey) (slot : Slot) : AccountMeta :=
  { key := (keys slot.role).getD relayProgram, signer := false, writable := slot.writable }

/-- The instruction that a client sends, given the keys in each group of accounts. -/
def instruction (request : Request) (keys : List (Role → Option Pubkey)) : Instruction :=
  { program := relayProgram
    accounts := (request.slotGroups.zip keys).flatMap fun (slots, keys) =>
      slots.map (clientMeta keys)
    data := Selector.instruction request.name ++ request.arguments }

/-! ## Reading requests -/

/-- A bump and nothing else. -/
def bumpOnly (make : UInt8 → LendingCall) : Decoder Request := do
  let bump ← Wire.decode
  return .forward (make bump)

/-- A movement with its amount, and with a bump in front if the deposit account has one. -/
def movement (direction : Direction) (withBump : Bool) : Decoder Custody := do
  let bump ← if withBump then some <$> (Wire.decode : Decoder UInt8) else pure none
  let amount ← Wire.decode
  return { direction, bump, amount }

def transfer (direction : Direction) : Decoder Request := do
  let collateralBump ← Wire.decode
  let depositBump ← Wire.decode
  let amount ← Wire.decode
  return .forward (.transferCollateral direction collateralBump depositBump amount)

def borrowing : Decoder Request := do
  let bump ← Wire.decode
  let amount ← Wire.decode
  return .forward (.borrow bump amount)

def repayment : Decoder Request := do
  let amount ← Wire.decode
  return .forward (.repay amount)

/-- The instructions of the relay. -/
def forms : List (InstructionForm Request) :=
  [⟨"refresh_reserve", pure (.forward .refreshReserve)⟩,
   ⟨"refresh_psyfi_reserve", pure (.forward .refreshPsyfiReserve)⟩,
   ⟨"accrue_interest", pure (.forward .accrueInterest)⟩,
   ⟨"init_obligation", bumpOnly .initObligation⟩,
   ⟨"close_obligation", pure (.forward .closeObligation)⟩,
   ⟨"init_deposit_account", bumpOnly .initDepositAccount⟩,
   ⟨"close_deposit_account", pure (.forward .closeDepositAccount)⟩,
   ⟨"deposit", (.forward ∘ .custody) <$> movement .deposit true⟩,
   ⟨"withdraw", (.forward ∘ .custody) <$> movement .withdraw true⟩,
   ⟨"deposit_tokens", (.forward ∘ .custody) <$> movement .deposit false⟩,
   ⟨"withdraw_tokens", (.forward ∘ .custody) <$> movement .withdraw false⟩,
   ⟨"init_collateral_account", bumpOnly .initCollateralAccount⟩,
   ⟨"close_collateral_account", pure (.forward .closeCollateralAccount)⟩,
   ⟨"deposit_collateral", transfer .deposit⟩,
   ⟨"withdraw_collateral", transfer .withdraw⟩,
   ⟨"init_loan_account", bumpOnly .initLoanAccount⟩,
   ⟨"close_loan_account", pure (.forward .closeLoanAccount)⟩,
   ⟨"borrow", borrowing⟩,
   ⟨"repay", repayment⟩,
   ⟨"accrue_deposit", .accrueThen <$> movement .deposit true⟩,
   ⟨"accrue_withdraw", .accrueThen <$> movement .withdraw true⟩,
   ⟨"accrue_deposit_tokens", .accrueThen <$> movement .deposit false⟩,
   ⟨"accrue_withdraw_tokens", .accrueThen <$> movement .withdraw false⟩,
   ⟨"get_current_interest", pure (.report .currentInterest)⟩,
   ⟨"get_reserve_balance", pure (.report .reserveBalance)⟩,
   ⟨"get_user_balance", pure (.report .userBalance)⟩,
   ⟨"dummy_cpi", pure .callDummy⟩]

end Request

end LendingRelay
