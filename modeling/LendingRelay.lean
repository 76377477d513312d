import LendingRelay.Account
import LendingRelay.Address.Authority
import LendingRelay.Address.Kind
import LendingRelay.Address.ProgramAddress
import LendingRelay.Amount
import LendingRelay.Bytes
import LendingRelay.Curve.Edwards25519
import LendingRelay.Dummy
import LendingRelay.Entry
import LendingRelay.Event
import LendingRelay.Fault
import LendingRelay.Fault.Framework
import LendingRelay.Fault.Program
import LendingRelay.Fault.Relay
import LendingRelay.Golden
import LendingRelay.Hash.Sha256
import LendingRelay.Instruction
import LendingRelay.Invoke
import LendingRelay.Layout.Field
import LendingRelay.Layout.Market
import LendingRelay.Layout.Obligation
import LendingRelay.Layout.Reserve
import LendingRelay.Layout.TokenAccount
import LendingRelay.Lending.Call
import LendingRelay.Lending.Instruction
import LendingRelay.Lending.Policy
import LendingRelay.Lending.Slots
import LendingRelay.Main
import LendingRelay.Network
import LendingRelay.Number
import LendingRelay.Operation
import LendingRelay.Proofs.Announcements
import LendingRelay.Proofs.Authorization
import LendingRelay.Proofs.Blindness
import LendingRelay.Proofs.BumpSearch
import LendingRelay.Proofs.CallAccounts
import LendingRelay.Proofs.Composition
import LendingRelay.Proofs.Courses
import LendingRelay.Proofs.DecimalText
import LendingRelay.Proofs.Discipline
import LendingRelay.Proofs.Entering
import LendingRelay.Proofs.FieldRuns
import LendingRelay.Proofs.Forwarding
import LendingRelay.Proofs.Gate
import LendingRelay.Proofs.InterestRate
import LendingRelay.Proofs.Interpolation
import LendingRelay.Proofs.Layouts
import LendingRelay.Proofs.LinePoints
import LendingRelay.Proofs.Lossless
import LendingRelay.Proofs.NoteCustody
import LendingRelay.Proofs.NoteRounding
import LendingRelay.Proofs.PositionLookup
import LendingRelay.Proofs.Privilege
import LendingRelay.Proofs.Quotients
import LendingRelay.Proofs.RateOrder
import LendingRelay.Proofs.Reading
import LendingRelay.Proofs.Records
import LendingRelay.Proofs.ReportGate
import LendingRelay.Proofs.Reports
import LendingRelay.Proofs.Runs
import LendingRelay.Proofs.Scaling
import LendingRelay.Proofs.Seats
import LendingRelay.Proofs.Separation
import LendingRelay.Proofs.Serving
import LendingRelay.Proofs.ShareAccuracy
import LendingRelay.Proofs.Utilization
import LendingRelay.Proofs.WireForms
import LendingRelay.Proofs.Words
import LendingRelay.Pubkey
import LendingRelay.Rates
import LendingRelay.Relay.Authorize
import LendingRelay.Relay.Forward
import LendingRelay.Relay.Program
import LendingRelay.Relay.Report
import LendingRelay.Relay.Request
import LendingRelay.Role
import LendingRelay.Run
import LendingRelay.Seating
import LendingRelay.Slot
import LendingRelay.Text.Base58
import LendingRelay.Text.CamelCase
import LendingRelay.Text.Decimal
import LendingRelay.Text.Hex
import LendingRelay.Text.Json
import LendingRelay.Text.Quoted
import LendingRelay.TwoStep
import LendingRelay.Wire.Decoder
import LendingRelay.Wire.Keys
import LendingRelay.Wire.Selector
