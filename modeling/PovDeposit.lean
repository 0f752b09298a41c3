import PovDeposit.Lib.Machine
import PovDeposit.Lib.Progress
import PovDeposit.Lib.Replay
import PovDeposit.Lib.KeyedSum
import PovDeposit.Lib.Outcome
import PovDeposit.Lib.Slots
import PovDeposit.Lib.Lease
import PovDeposit.Lib.IsoDate
import PovDeposit.Lib.Regex
import PovDeposit.Lib.Numeral
import PovDeposit.Lib.Base64
import PovDeposit.Contract.Escrow
import PovDeposit.Contract.Ledger
import PovDeposit.Contract.Effect
import PovDeposit.Contract.Solvency
import PovDeposit.Contract.Settlement
import PovDeposit.Contract.Deadline
import PovDeposit.Contract.EventLedger
import PovDeposit.Contract.Evidence
import PovDeposit.Contract.Ttl
import PovDeposit.Contract.Accounts
import PovDeposit.Contract.Replay
import PovDeposit.Api.Payments
import PovDeposit.Api.History
import PovDeposit.Api.Progress
import PovDeposit.Api.CheckIn
import PovDeposit.Api.Verifier
import PovDeposit.Api.Server
import PovDeposit.Api.Handlers
import PovDeposit.Api.Completion
import PovDeposit.Api.Requests
import PovDeposit.Api.Presence
import PovDeposit.Api.ProofHash
import PovDeposit.Api.Redemption
import PovDeposit.Api.TokenText
import PovDeposit.Api.CheckInRequest
import PovDeposit.Api.SignIns
import PovDeposit.Api.Properties
import PovDeposit.Api.Memory
import PovDeposit.Api.Visibility
import PovDeposit.Api.ViewingSlots
import PovDeposit.Api.Reservations
import PovDeposit.Api.Reading
import PovDeposit.Api.StellarConfig
import PovDeposit.Api.CspHashes
import PovDeposit.Joint.Chain
import PovDeposit.Joint.EventPages
import PovDeposit.Joint.BookingForm
import PovDeposit.Joint.BookingId
import PovDeposit.Joint.System
import PovDeposit.Joint.Settlement
import PovDeposit.Joint.Agreement
import PovDeposit.Joint.Reconciliation
import PovDeposit.Joint.DeadEnds
import PovDeposit.Joint.Checkout
import PovDeposit.Joint.Buttons
import PovDeposit.Web.Signature
import PovDeposit.Web.Network
import PovDeposit.Web.WalletDialog
import PovDeposit.Web.VerifiedWallets
import PovDeposit.Joint.Activity
import PovDeposit.Joint.Deal
import PovDeposit.Joint.Pages
import PovDeposit.Joint.Reports
import PovDeposit.Joint.Unreported
import PovDeposit.Joint.Recovery
import PovDeposit.Joint.Charges
import PovDeposit.Api.Seed
