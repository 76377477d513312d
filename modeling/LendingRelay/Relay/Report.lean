import LendingRelay.Layout.Market
import LendingRelay.Layout.Obligation
import LendingRelay.Layout.Reserve
import LendingRelay.Run
import LendingRelay.Seating

/-!
# Reports

Figures read from the accounts of the lending program and written to the log. They are as old as
the last accrual of the reserve. Nothing is reported unless the accounts belong to the lending
program and to one another.
-/

namespace LendingRelay

inductive Report
  | currentInterest
  | reserveBalance
  | userBalance
  deriving DecidableEq, Repr

namespace Report

def name : Report → String
  | currentInterest => "get_current_interest"
  | reserveBalance => "get_reserve_balance"
  | userBalance => "get_user_balance"

def slots : Report → List Slot
  | currentInterest => [.readOnly .market, .readOnly .reserve]
  | reserveBalance => [.readOnly .market, .readOnly .reserve]
  | userBalance =>
    [.readOnly .market, .readOnly .reserve, .readOnly .obligation,
     .optionalTokens .depositNoteAccount]

/-- Requires an account to belong to the lending program. -/
def requireLendingOwner (account : Account) : Run Unit :=
  Run.requireKeysEq account.owner lendingProgram .accountMismatch

/-- The place of a reserve in a market, after checking that each names the other. -/
def listedIndex (market : MarketView) (reserve : ReserveView) (marketKey reserveKey : Pubkey) :
    Run UInt16 := do
  Run.requireKeysEq (← Run.lift reserve.market) marketKey .accountMismatch
  let index ← Run.lift reserve.index
  Run.requireKeysEq (← Run.lift (market.reserveAt index)) reserveKey .accountMismatch
  return index

/-- Logs a figure under its label. -/
def figure [ToString α] (label : String) (value : Except RelayError α) : Run Unit := do
  -- A figure that cannot be had ends the report without a line of its own.
  let value ← Run.lift value
  Run.log s!"{label}: {value}"

/-- The utilization of the reserve and the rate that its curve gives. -/
def logCurrentInterest (seating : Seating) : Run Unit := do
  requireLendingOwner (seating.account .market)
  requireLendingOwner (seating.account .reserve)
  let market ← Run.lift (MarketView.ofData? (seating.account .market).data)
  let reserve ← Run.lift (ReserveView.ofData? (seating.account .reserve).data)
  let _ ← listedIndex market reserve (seating.key .market) (seating.key .reserve)
  let debt ← Run.lift reserve.outstandingDebt
  let deposits ← Run.lift reserve.totalDeposits
  let utilization ← Run.lift (utilizationRate debt deposits)
  let curve ← Run.lift reserve.rateCurve
  let rate ← Run.lift (curve.interestRate debt deposits)
  figure "utilization rate" (.ok utilization)
  figure "interest rate" (.ok rate)

/-- What the reserve holds and is owed. -/
def logReserveBalance (seating : Seating) : Run Unit := do
  requireLendingOwner (seating.account .market)
  requireLendingOwner (seating.account .reserve)
  let market ← Run.lift (MarketView.ofData? (seating.account .market).data)
  let reserve ← Run.lift (ReserveView.ofData? (seating.account .reserve).data)
  let index ← listedIndex market reserve (seating.key .market) (seating.key .reserve)
  let exponent ← Run.lift reserve.exponent
  let deposits ← Run.lift reserve.totalDeposits
  let debt ← Run.lift reserve.outstandingDebt
  let rates ← Run.lift (market.noteRates index)
  figure "vault" reserve.vault
  match ← Run.lift reserve.psyfiVault with
  | some vault => figure "psyfi vault" (.ok vault)
  | none => pure ()
  figure "accrued until" reserve.accruedUntil
  figure "total deposits" (.ok deposits)
  figure "outstanding debt" (debt.scaled exponent.toInt .down)
  let fees ← Run.lift reserve.uncollectedFees
  figure "uncollected fees" (fees.scaled exponent.toInt .down)
  figure "loan origination fee bps" reserve.loanOriginationFeeBps
  figure "deposit note supply" reserve.totalDepositNotes
  figure "loan note supply" reserve.totalLoanNotes
  figure "deposit note exchange rate" (.ok rates.depositNoteRate)
  figure "loan note exchange rate" (.ok rates.loanNoteRate)

/-- An amount of notes and what it is worth. -/
def logNotes (notesLabel nativeLabel : String) (notes rate : Number) (exponent : Int32) :
    Run Unit := do
  figure notesLabel (.ok notes)
  figure nativeLabel (notesToNative notes rate exponent.toInt)

/-- What a user owes and holds in the reserve. -/
def logUserBalance (seating : Seating) : Run Unit := do
  requireLendingOwner (seating.account .market)
  requireLendingOwner (seating.account .reserve)
  requireLendingOwner (seating.account .obligation)
  let market ← Run.lift (MarketView.ofData? (seating.account .market).data)
  let reserve ← Run.lift (ReserveView.ofData? (seating.account .reserve).data)
  let obligation ← Run.lift (ObligationView.ofData? (seating.account .obligation).data)
  let index ← listedIndex market reserve (seating.key .market) (seating.key .reserve)
  Run.requireKeysEq (← Run.lift obligation.market) (seating.key .market) .accountMismatch
  figure "obligation owner" obligation.owner
  let exponent ← Run.lift reserve.exponent
  let rates ← Run.lift (market.noteRates index)
  match ← Run.lift (obligation.position .collateral index) with
  | some position =>
    logNotes "collateral notes" "collateral native" position.amount rates.depositNoteRate exponent
  | none => pure ()
  match ← Run.lift (obligation.position .loan index) with
  | some position => logNotes "loan notes" "loan native" position.amount rates.loanNoteRate exponent
  | none => pure ()
  match seating.tokens? .depositNoteAccount with
  | some tokens =>
    figure "held deposit notes" (.ok tokens.amount)
    figure "held native"
      (notesToNative (.ofUInt64 tokens.amount) rates.depositNoteRate exponent.toInt)
  | none => pure ()

def write : Report → Seating → Run Unit
  | currentInterest => logCurrentInterest
  | reserveBalance => logReserveBalance
  | userBalance => logUserBalance

end Report

end LendingRelay
