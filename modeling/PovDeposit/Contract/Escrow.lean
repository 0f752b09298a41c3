/-
  The escrow contract `VisitDepositEscrow` (contracts/pov_deposit_escrow/src/lib.rs).

  Every entry point is a function of the host environment `Env` of one call and of the
  `Escrow` state it reads and writes, under the source's name. `Except.error` is a call
  that does not commit: a `ContractError` the contract returns, or a `Trap` of the host
  (a missing authorisation, an archived entry, the token refusing). The host rolls both
  back; that is in `Contract.Ledger`.

  Modelled of the host:
  * instance storage (the accepted asset) and persistent storage (the bookings), each with
    its live-until ledger; touching an entry past its live-until ledger traps;
  * `require_auth`, as membership in the addresses that authorised the call;
  * the token, which is not in this repository: `transfer` moves exactly `amount` or traps,
    for lack of funds or on grounds of its own (`Env.tokenAccepts`);
  * the contract event log, tagged with the transaction as the RPC reports it.

  `u64` values are `UInt64`. `i128` amounts are `Int`: the contract only compares them.
-/
import Mathlib.Data.List.AList
import Mathlib.Logic.Function.Basic

namespace PovDeposit.Contract

/-- An account or contract, by its strkey text. -/
abbrev Address := String

def minDeposit : Int := 100000
def maxDeposit : Int := 1000000000
def ttlThreshold : Nat := 14 * 17280
def ttlExtendTo : Nat := 90 * 17280

inductive BookingState where
  | created
  | funded
  | refunded
  | released
  deriving DecidableEq, Repr

structure Booking where
  bookingId : UInt64
  renter : Address
  host : Address
  depositAmount : Int
  visitTime : UInt64
  state : BookingState
  deriving DecidableEq, Repr

inductive ContractError where
  | alreadyInitialized
  | notInitialized
  | bookingAlreadyExists
  | bookingNotFound
  | invalidBookingState
  | unauthorized
  | invalidBooking
  deriving DecidableEq, Repr

/-- The contract events; each carries `booking_id` as its second topic. -/
inductive ContractEvent where
  | bookingCreated (bookingId : UInt64) (renter host : Address) (depositAmount : Int)
  | bookingFunded (bookingId : UInt64) (amount : Int)
  | depositRefunded (bookingId : UInt64) (amount : Int)
  | visitConfirmed (bookingId : UInt64) (amount : Int)
  deriving DecidableEq, Repr

/-! ## The host -/

/-- Why the host aborts a call. -/
inductive Trap where
  | missingAuth
  | archivedEntry
  | unwrapNone
  | insufficientBalance
  | tokenRefused
  deriving DecidableEq, Repr

inductive Failure where
  | error (e : ContractError)
  | trap (t : Trap)
  deriving DecidableEq, Repr

/-- What one call sees of the host and may not change. -/
structure Env where
  timestamp : UInt64
  sequence : Nat
  txHash : String
  /-- `env.current_contract_address()` -/
  contract : Address
  /-- the addresses whose authorisation covers this call -/
  auths : List Address
  /-- the live-until ledger a new persistent entry starts with, counted from now -/
  minPersistentTtl : Nat
  /-- whether the token raises no objection of its own (asset, from, to, amount) -/
  tokenAccepts : Address → Address → Address → Int → Bool

/-- A token movement `from → to`, as the token records it. -/
structure Transfer where
  asset : Address
  sender : Address
  receiver : Address
  amount : Int
  deriving DecidableEq, Repr

/-- A published event with the transaction and the ledger it was published in. -/
structure LoggedEvent where
  txHash : String
  ledger : Nat
  event : ContractEvent
  deriving DecidableEq, Repr

/-- A persistent entry `DataKey::Booking(id)`. -/
structure Entry where
  value : Booking
  liveUntil : Nat

/-- The state the contract reads and writes: its storage, the token's balances
    (asset, holder), and the append-only logs of token transfers and contract events. -/
structure Escrow where
  asset : Option Address
  instanceLiveUntil : Nat
  bookings : AList fun _ : UInt64 => Entry
  balances : Address → Address → Int
  transfers : List Transfer
  events : List LoggedEvent

/-- The booking stored under an id. -/
def Escrow.booking? (σ : Escrow) (bookingId : UInt64) : Option Booking :=
  (σ.bookings.lookup bookingId).map Entry.value

/-- `require_auth` -/
def requireAuth (env : Env) (address : Address) : Except Failure Unit :=
  if address ∈ env.auths then .ok () else .error (.trap .missingAuth)

/-- `extend_ttl(threshold, extend_to)`: renewed only when fewer than `threshold` ledgers
    remain. -/
def extendTtl (env : Env) (liveUntil threshold extendTo : Nat) : Nat :=
  if liveUntil - env.sequence < threshold then env.sequence + extendTo else liveUntil

/-- `amount` of `asset` leaves `sender`, then reaches `receiver`. -/
def moveBalance (balances : Address → Address → Int) (asset sender receiver : Address)
    (amount : Int) : Address → Address → Int :=
  let debited := Function.update (balances asset) sender (balances asset sender - amount)
  Function.update balances asset
    (Function.update debited receiver (debited receiver + amount))

/-- `token::Client::transfer`: moves exactly `amount` or traps. -/
def tokenTransfer (env : Env) (σ : Escrow) (asset sender receiver : Address) (amount : Int) :
    Except Failure Escrow :=
  if env.tokenAccepts asset sender receiver amount = false then .error (.trap .tokenRefused)
  else if σ.balances asset sender < amount then .error (.trap .insufficientBalance)
  else .ok { σ with
    balances := moveBalance σ.balances asset sender receiver amount
    transfers := σ.transfers ++ [⟨asset, sender, receiver, amount⟩] }

def publish (env : Env) (σ : Escrow) (event : ContractEvent) : Escrow :=
  { σ with events := σ.events ++ [⟨env.txHash, env.sequence, event⟩] }

/-! ## Storage access -/

def asset (σ : Escrow) : Except Failure Address :=
  match σ.asset with
  | some a => .ok a
  | none => .error (.error .notInitialized)

/-- `storage().persistent().has` -/
def hasBooking (env : Env) (σ : Escrow) (bookingId : UInt64) : Except Failure Bool :=
  match σ.bookings.lookup bookingId with
  | none => .ok false
  | some e => if e.liveUntil < env.sequence then .error (.trap .archivedEntry) else .ok true

def readBooking (env : Env) (σ : Escrow) (bookingId : UInt64) :
    Except Failure (Booking × Escrow) :=
  match σ.bookings.lookup bookingId with
  | none => .error (.error .bookingNotFound)
  | some e =>
    if e.liveUntil < env.sequence then .error (.trap .archivedEntry)
    else
      let liveUntil := extendTtl env e.liveUntil ttlThreshold ttlExtendTo
      .ok (e.value, { σ with bookings := σ.bookings.insert bookingId ⟨e.value, liveUntil⟩ })

/-- `set` keeps the live-until ledger of an entry that exists. -/
def writeBooking (env : Env) (σ : Escrow) (booking : Booking) : Escrow :=
  let liveUntil := match σ.bookings.lookup booking.bookingId with
    | none => env.sequence + env.minPersistentTtl
    | some e => e.liveUntil
  let entry : Entry := ⟨booking, extendTtl env liveUntil ttlThreshold ttlExtendTo⟩
  { σ with bookings := σ.bookings.insert booking.bookingId entry }

/-- `transfer`: `asset(&env).unwrap()`, then the token. -/
def transfer (env : Env) (σ : Escrow) (sender receiver : Address) (amount : Int) :
    Except Failure Escrow :=
  match asset σ with
  | .error _ => .error (.trap .unwrapNone)
  | .ok a => tokenTransfer env σ a sender receiver amount

/-! ## Entry points -/

/-- `initialize` -/
def initializeEscrow (env : Env) (σ : Escrow) (admin acceptedAsset : Address) :
    Except Failure Escrow :=
  if σ.asset.isSome then .error (.error .alreadyInitialized)
  else do
    requireAuth env admin
    return { σ with
      asset := some acceptedAsset
      instanceLiveUntil := extendTtl env σ.instanceLiveUntil ttlThreshold ttlExtendTo }

def createBooking (env : Env) (σ : Escrow) (bookingId : UInt64) (renter host : Address)
    (depositAmount : Int) (visitTime : UInt64) : Except Failure Escrow := do
  let _ ← asset σ
  let known ← hasBooking env σ bookingId
  if known then .error (.error .bookingAlreadyExists)
  else if renter = host ∨ ¬ (minDeposit ≤ depositAmount ∧ depositAmount ≤ maxDeposit)
      ∨ visitTime ≤ env.timestamp then .error (.error .invalidBooking)
  else
    requireAuth env renter
    let σ := writeBooking env σ ⟨bookingId, renter, host, depositAmount, visitTime, .created⟩
    return publish env σ (.bookingCreated bookingId renter host depositAmount)

def booking (env : Env) (σ : Escrow) (bookingId : UInt64) : Except Failure (Booking × Escrow) :=
  readBooking env σ bookingId

def fundBooking (env : Env) (σ : Escrow) (renter : Address) (bookingId : UInt64) :
    Except Failure Escrow := do
  let (booking, σ) ← readBooking env σ bookingId
  if booking.renter ≠ renter then .error (.error .unauthorized)
  else if booking.state ≠ .created then .error (.error .invalidBookingState)
  else
    requireAuth env renter
    let σ ← transfer env σ renter env.contract booking.depositAmount
    let σ := writeBooking env σ { booking with state := .funded }
    return publish env σ (.bookingFunded bookingId booking.depositAmount)

def cancelBooking (env : Env) (σ : Escrow) (renter : Address) (bookingId : UInt64) :
    Except Failure Escrow := do
  let (booking, σ) ← readBooking env σ bookingId
  if booking.renter ≠ renter then .error (.error .unauthorized)
  else if booking.state ≠ .created ∧ booking.state ≠ .funded then
    .error (.error .invalidBookingState)
  else if booking.visitTime ≤ env.timestamp then .error (.error .invalidBookingState)
  else
    requireAuth env renter
    -- only a funded booking pays out; the event below is published either way
    let σ ← if booking.state = .funded then
        transfer env σ env.contract renter booking.depositAmount
      else .ok σ
    let σ := writeBooking env σ { booking with state := .refunded }
    return publish env σ (.depositRefunded bookingId booking.depositAmount)

def confirmVisit (env : Env) (σ : Escrow) (host : Address) (bookingId : UInt64) :
    Except Failure Escrow := do
  let (booking, σ) ← readBooking env σ bookingId
  if booking.host ≠ host then .error (.error .unauthorized)
  else if booking.state ≠ .funded ∨ env.timestamp < booking.visitTime then
    .error (.error .invalidBookingState)
  else
    requireAuth env host
    let σ ← transfer env σ env.contract booking.renter booking.depositAmount
    let σ := writeBooking env σ { booking with state := .released }
    return publish env σ (.visitConfirmed bookingId booking.depositAmount)

/-- An invocation of the contract. -/
inductive Call where
  | initializeEscrow (admin acceptedAsset : Address)
  | createBooking (bookingId : UInt64) (renter host : Address) (depositAmount : Int)
      (visitTime : UInt64)
  | booking (bookingId : UInt64)
  | fundBooking (renter : Address) (bookingId : UInt64)
  | cancelBooking (renter : Address) (bookingId : UInt64)
  | confirmVisit (host : Address) (bookingId : UInt64)
  deriving DecidableEq, Repr

/-- Runs a call. The contract instance itself must be live. -/
def invoke (env : Env) (σ : Escrow) (call : Call) : Except Failure Escrow :=
  if σ.instanceLiveUntil < env.sequence then .error (.trap .archivedEntry)
  else match call with
    | .initializeEscrow admin acceptedAsset => initializeEscrow env σ admin acceptedAsset
    | .createBooking bookingId renter host depositAmount visitTime =>
        createBooking env σ bookingId renter host depositAmount visitTime
    | .booking bookingId => (booking env σ bookingId).map Prod.snd
    | .fundBooking renter bookingId => fundBooking env σ renter bookingId
    | .cancelBooking renter bookingId => cancelBooking env σ renter bookingId
    | .confirmVisit host bookingId => confirmVisit env σ host bookingId

end PovDeposit.Contract
