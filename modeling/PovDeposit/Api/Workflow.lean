/-
  `BookingWorkflowService` on its database
  (apps/api/src/booking/booking-workflow.service.ts, the branches with a `prisma`).

  `create` is one serializable transaction and a function of the database. `fund`, `checkIn`,
  `refund` and `confirm` are processes that run statement by statement, on any number of API
  instances, interleaved in any order: `Operation` is what the four have in common, `advance`
  runs the next statement of a call. A statement of a call that failed or of an instance that
  went down is `fail` and `stop`.

  `fund` and `refund` write inside one `$transaction`. Until its commit its writes are seen by
  no other call, but they are in the way of others: a row it updated is locked, and a payment
  hash it inserted is taken. A statement that needs either waits, so its step is not
  available. Rolling back drops the writes and frees both.

  A call may spell the id of its booking as it likes. Its statements read the id by value, so
  the call goes on with the id as the database spells it (`Call.enter`).
-/
import PovDeposit.Api.Schema
import PovDeposit.Api.Runtime
import PovDeposit.Lib.Machine

namespace PovDeposit.Api.Workflow

open PovDeposit.Lib
open PovDeposit.Contract (Address)

/-- The service's `Booking`; instants stand for their ISO strings. -/
structure Booking where
  id : String
  onChainBookingId : String
  listingId : String
  renter : Address
  host : Address
  depositAmount : Int
  visitTime : Int
  evidenceHash : String
  state : BookingStatus
  checkInProofHash : Option String
  fundingTransactionHash : Option String
  settlementTransactionHash : Option String
  deriving DecidableEq, Repr

/-- `fromDatabase`, given the row with its property's slug and its payments. -/
def fromDatabase (stored : BookingRow) (slug : String) (transactions : List PaymentTransaction) :
    Booking where
  id := stored.id
  onChainBookingId := stored.onChainBookingId
  listingId := slug
  renter := stored.renter
  host := stored.host
  depositAmount := stored.depositAmount
  visitTime := stored.visitTime
  evidenceHash := stored.evidenceHash
  state := stored.status
  checkInProofHash := stored.checkInProofHash
  fundingTransactionHash := (transactions.find? fun t => t.kind = .fund).map (·.hash)
  settlementTransactionHash := (transactions.find? fun t => t.kind ≠ .fund).map (·.hash)

/-- The row with its property and payments included. -/
def load (db : Db) (stored : BookingRow) : Booking :=
  fromDatabase stored
    (((db.properties.find? fun p => p.id = stored.propertyId).map (·.slug)).getD "")
    (db.payments.filter fun t => t.bookingId = stored.id)

/-- `booking.findUnique` -/
def findUnique (db : Db) (id : String) : Except String Booking :=
  match db.bookings.lookup id with
  | some stored => .ok (load db stored)
  | none => .error "Booking not found"

def get (R : Runtime) (db : Db) (id : String) : Except String Booking := do
  let id ← R.readUuid id
  findUnique db id

/-! ## create -/

structure CreateBooking where
  listingId : String
  renter : Address
  host : Address
  depositAmount : Int
  visitTime : String
  evidenceHash : String
  deriving DecidableEq, Repr

/-- The transaction of `create`: the property by its slug and host, a free slot of it at the
    visit time, the renter's wallet, the booking with its first history row. -/
def createTransaction (R : Runtime) (network : String) (db : Db) (id onChainBookingId : String)
    (input : CreateBooking) (visitTime : Int) : Except String (Db × Booking) :=
  let property := db.properties.find? fun p =>
    p.slug = input.listingId && p.active && p.host = input.host
  let slot := property.bind fun p => db.slots.find? fun s =>
    s.propertyId = p.id && s.startsAt = visitTime && !db.rows.any fun r => r.slotId = s.id
  match property, slot with
  | some property, some slot =>
    -- the renter is the one text here that is in no row yet
    if ¬ R.storable input.renter then .error "invalid byte sequence for encoding"
    else do
      let db := { db with wallets := db.wallets.insert input.renter network }
      let row : BookingRow :=
        { id := id
          onChainBookingId := onChainBookingId
          propertyId := property.id
          slotId := slot.id
          renter := input.renter
          host := property.host
          depositAmount := input.depositAmount
          asset := "native"
          visitTime := visitTime
          evidenceHash := input.evidenceHash
          checkInProofHash := none
          status := .pendingFunding
          version := 0 }
      let db ← db.insertBooking row
      let db := db.insertHistory ⟨id, none, .pendingFunding, input.renter, none⟩
      return (db, load db row)
  | _, _ => .error "Approved property or available viewing slot not found"

/-- `create`, at time `now` with the UUID `randomUUID` returned. -/
def create (R : Runtime) (network : String) (db : Db) (now : Int) (uuid : String)
    (input : CreateBooking) : Except String (Db × Booking) :=
  if input.renter = input.host then .error "Renter and host must differ"
  else if input.depositAmount ≤ 0 ∨ 100000000000 < input.depositAmount then
    .error "Deposit amount out of bounds"
  else if (R.date input.visitTime).any fun t => t ≤ now then
    .error "Visit time must be in the future"
  else if ¬ isHash input.evidenceHash then .error "Invalid evidence hash"
  else match onChainBookingId uuid, R.date input.visitTime with
    | some onChain, some visitTime => createTransaction R network db uuid onChain input visitTime
    | none, _ => .error "Cannot convert to a BigInt"
    | _, none => .error "Invalid date"

/-! ## fund, checkIn, refund, confirm -/

/-- What the controller learned of a transaction; `confirmedAt` in milliseconds. -/
structure Verification where
  ledger : Nat
  confirmedAt : Int
  deriving DecidableEq, Repr

inductive Role where
  | renter
  | host
  deriving DecidableEq, Repr

/-- The party an operation is reserved to, and who claims to be it. -/
structure Party where
  role : Role
  actor : Address
  error : String
  deriving DecidableEq, Repr

/-- The payment row an operation writes in its `$transaction`. -/
structure Payment where
  kind : TransactionKind
  verification : Option Verification
  missing : String
  deriving DecidableEq, Repr

/-- The shape that `fund`, `checkIn`, `refund` and `confirm` share. -/
structure Operation where
  id : String
  source : BookingStatus
  target : BookingStatus
  stateError : String
  party : Option Party
  /-- what `assertHash` looks at -/
  hash : String
  proofHash : Option String
  /-- present where the writes are one `$transaction` -/
  payment : Option Payment
  updateError : String
  txHash : Option String
  deriving DecidableEq, Repr

def fund (id transactionHash : String) (verification : Option Verification) : Operation where
  id := id
  source := .pendingFunding
  target := .funded
  stateError := "Booking is not awaiting funding"
  party := none
  hash := transactionHash
  proofHash := none
  payment := some ⟨.fund, verification, "Verified funding metadata is required"⟩
  updateError := "Booking is not awaiting funding"
  txHash := some transactionHash

def checkIn (id : String) (actor : Address) (proofHash : String) : Operation where
  id := id
  source := .funded
  target := .checkedIn
  stateError := "Booking must be funded"
  party := some ⟨.renter, actor, "Only renter can check in"⟩
  hash := proofHash
  proofHash := some proofHash
  payment := none
  updateError := "Booking cannot be checked in"
  txHash := none

def refund (id : String) (actor : Address) (transactionHash : String)
    (verification : Option Verification) : Operation where
  id := id
  source := .funded
  target := .refunded
  stateError := "Booking must be funded"
  party := some ⟨.renter, actor, "Only renter can cancel"⟩
  hash := transactionHash
  proofHash := none
  payment := some ⟨.refund, verification, "Verified refund metadata is required"⟩
  updateError := "Booking cannot be refunded"
  txHash := some transactionHash

def confirm (id : String) (actor : Address) (transactionHash : String) : Operation where
  id := id
  source := .checkedIn
  target := .completed
  stateError := "Renter must check in first"
  party := some ⟨.host, actor, "Only host can confirm"⟩
  hash := transactionHash
  proofHash := none
  payment := none
  updateError := "Booking cannot be confirmed"
  txHash := some transactionHash

/-- A call of the service. -/
inductive Call where
  | fund (id transactionHash : String) (verification : Option Verification)
  | checkIn (id : String) (actor : Address) (proofHash : String)
  | refund (id : String) (actor : Address) (transactionHash : String)
      (verification : Option Verification)
  | confirm (id : String) (actor : Address) (transactionHash : String)
  deriving DecidableEq, Repr

def Call.op : Call → Operation
  | .fund id hash verification => Workflow.fund id hash verification
  | .checkIn id actor proofHash => Workflow.checkIn id actor proofHash
  | .refund id actor hash verification => Workflow.refund id actor hash verification
  | .confirm id actor hash => Workflow.confirm id actor hash

def Call.withId (id : String) : Call → Call
  | .fund _ hash verification => .fund id hash verification
  | .checkIn _ actor proofHash => .checkIn id actor proofHash
  | .refund _ actor hash verification => .refund id actor hash verification
  | .confirm _ actor hash => .confirm id actor hash

/-- The call with its id as the database spells it; a text that is no UUID stays. -/
def Call.read (R : Runtime) (call : Call) : Call :=
  call.withId ((R.uuid call.op.id).getD call.op.id)

/-- The address a booking gives a role to. -/
def Role.of (role : Role) (renter host : Address) : Address :=
  match role with
  | .renter => renter
  | .host => host

/-- The checks on the booking as it was read, before any write. -/
def Operation.check (op : Operation) (booking : Booking) : Except String Unit :=
  if booking.state ≠ op.source then .error op.stateError
  else match op.party.filter fun p => p.role.of booking.renter booking.host ≠ p.actor with
    | some p => .error p.error
    | none =>
      if ¬ isHash op.hash then .error "Invalid transaction or evidence hash"
      else match op.payment.filter fun p => p.verification.isNone with
        | some p => .error p.missing
        | none => .ok ()

/-- `get` of an id that is read, then the checks. -/
def Operation.readAndCheck (op : Operation) (db : Db) : Except String Booking := do
  let booking ← findUnique db op.id
  op.check booking
  return booking

/-- The `where` of the conditional update. -/
def Operation.admits (op : Operation) (row : BookingRow) : Bool :=
  row.status = op.source && op.party.all fun p => p.role.of row.renter row.host = p.actor

/-- The `data` of the conditional update. -/
def Operation.apply (op : Operation) (row : BookingRow) : BookingRow :=
  { row with
    status := op.target
    checkInProofHash := op.proofHash.or row.checkInProofHash
    version := row.version + 1 }

def Operation.paymentRow (op : Operation) (booking : Booking) (kind : TransactionKind)
    (verification : Verification) : PaymentTransaction where
  bookingId := op.id
  hash := op.hash
  kind := kind
  amount := booking.depositAmount
  ledger := verification.ledger
  confirmedAt := verification.confirmedAt

def Operation.historyRow (op : Operation) (booking : Booking) : BookingStatusHistory where
  bookingId := op.id
  fromStatus := some op.source
  toStatus := op.target
  actor := (op.party.map Party.actor).getD booking.renter
  txHash := op.txHash

/-! ## Processes -/

/-- Where a call stands: what it did last, with the booking it read. -/
inductive Stage where
  | entered
  | checked (booking : Booking)
  | updated (booking : Booking)
  | paid (booking : Booking)
  | logged (booking : Booking)
  /-- everything is durable; the final `get` is left -/
  | written
  | returned (booking : Booking)
  | threw (error : String)
  | stopped
  deriving DecidableEq, Repr

structure Process where
  call : Call
  stage : Stage
  /-- whether its status change is in the database, for all to see -/
  durable : Bool
  deriving DecidableEq, Repr

abbrev Process.op (p : Process) : Operation := p.call.op

/-- A call as it arrives. -/
def Call.enter (R : Runtime) (call : Call) : Process where
  call := call.read R
  stage := match R.readUuid call.op.id with
    | .ok _ => .entered
    -- `get` throws
    | .error e => .threw e
  durable := false

def Stage.inFlight : Stage → Bool
  | .returned _ | .threw _ | .stopped => false
  | _ => true

/-- Past the conditional update, and in a transaction before its commit. -/
def Stage.hasUpdated : Stage → Bool
  | .updated _ | .paid _ | .logged _ => true
  | _ => false

/-- Past the payment row, before the commit. -/
def Stage.hasPaid : Stage → Bool
  | .paid _ | .logged _ => true
  | _ => false

/-- Its open transaction has updated the booking row. -/
def Process.holdsRow (p : Process) (id : String) : Bool :=
  p.op.payment.isSome && p.op.id = id && p.stage.hasUpdated

/-- Its open transaction has inserted a payment under the hash. -/
def Process.holdsHash (p : Process) (hash : String) : Bool :=
  p.op.payment.isSome && p.op.hash = hash && p.stage.hasPaid

structure State where
  db : Db
  calls : List Process

def State.call? (s : State) (i : Nat) : Option Process := s.calls[i]?

def State.rowLocked (s : State) (id : String) : Bool := s.calls.any fun p => p.holdsRow id

def State.hashTaken (s : State) (hash : String) : Bool := s.calls.any fun p => p.holdsHash hash

/-- Call `i` becomes `p`. -/
def State.move (s : State) (i : Nat) (p : Process) : State :=
  { s with calls := s.calls.set i p }

/-- The commit of a transaction: its three writes reach the tables at once. -/
def Operation.commit (op : Operation) (booking : Booking) (kind : TransactionKind)
    (verification : Verification) (db : Db) : Db :=
  let db := (db.updateMany op.id op.admits op.apply).2
  let db := { db with payments := db.payments ++ [op.paymentRow booking kind verification] }
  db.insertHistory (op.historyRow booking)

/-- The next statement of call `i`, which is `p`. -/
def advance (s : State) (i : Nat) (p : Process) : Option State :=
  match p.stage with
  | .entered =>
      match p.op.readAndCheck s.db with
      | .error e => some (s.move i { p with stage := .threw e })
      | .ok booking => some (s.move i { p with stage := .checked booking })
  | .checked booking =>
      -- `updateMany`: waits for a transaction that has updated the row
      if s.rowLocked p.op.id then none
      else
        let (count, db) := s.db.updateMany p.op.id p.op.admits p.op.apply
        if count ≠ 1 then some (s.move i { p with stage := .threw p.op.updateError })
        else if p.op.payment.isSome then some (s.move i { p with stage := .updated booking })
        else
          let s := { s with db := db }
          some (s.move i { p with stage := .updated booking, durable := true })
  | .updated booking =>
      match p.op.payment with
      | none =>
          -- `checkIn` and `confirm`: the history row is a statement of its own
          let s := { s with db := s.db.insertHistory (p.op.historyRow booking) }
          some (s.move i { p with stage := .written })
      | some ⟨kind, some v, _⟩ =>
          -- `paymentTransaction.create`: waits for a transaction that has inserted the hash
          if s.hashTaken p.op.hash then none
          else match s.db.insertPayment (p.op.paymentRow booking kind v) with
            | .error e => some (s.move i { p with stage := .threw e })
            | .ok _ => some (s.move i { p with stage := .paid booking })
      -- ruled out by `check`
      | some ⟨_, none, _⟩ => none
  | .paid booking => some (s.move i { p with stage := .logged booking })
  | .logged booking =>
      match p.op.payment with
      | some ⟨kind, some v, _⟩ =>
          let s := { s with db := p.op.commit booking kind v s.db }
          some (s.move i { p with stage := .written, durable := true })
      | _ => none
  | .written =>
      match findUnique s.db p.op.id with
      | .error e => some (s.move i { p with stage := .threw e })
      | .ok booking => some (s.move i { p with stage := .returned booking })
  | .returned _ | .threw _ | .stopped => none

inductive Action where
  | create (now : Int) (uuid : String) (input : CreateBooking)
  | call (call : Call)
  | advance (i : Nat)
  /-- the current statement of call `i` fails, and the call throws -/
  | fail (i : Nat) (error : String)
  /-- the instance that runs call `i` goes down -/
  | stop (i : Nat)
  /-- the services for authentication and check-in challenges write their own tables -/
  | others (wallets : AList fun _ : Address => String)
      (challenges : AList fun _ : String => CheckInChallenge)

def step (R : Runtime) (network : String) (s : State) : Action → Option State
  | .create now uuid input =>
      -- `randomUUID` spells its UUIDs as the database does
      if ¬ R.Canonical uuid then none
      else match create R network s.db now uuid input with
        | .ok (db, _) => some { s with db := db }
        | .error _ => some s
  | .call call => some { s with calls := s.calls ++ [call.enter R] }
  | .advance i => (s.call? i).bind fun p => advance s i p
  | .fail i error => (s.call? i).bind fun p =>
      if p.stage.inFlight then some (s.move i { p with stage := .threw error }) else none
  | .stop i => (s.call? i).bind fun p =>
      if p.stage.inFlight then some (s.move i { p with stage := .stopped }) else none
  | .others wallets challenges =>
      some { s with db := { s.db with wallets := wallets, challenges := challenges } }

/-- No booking yet, and no call. Listings, slots and wallets may be anything. -/
structure Fresh (s : State) : Prop where
  bookings : s.db.bookings = ∅
  history : s.db.history = []
  payments : s.db.payments = []
  challenges : s.db.challenges = ∅
  calls : s.calls = []

def machine (R : Runtime) (network : String) : Machine State Action where
  init := Fresh
  step := step R network

end PovDeposit.Api.Workflow
