/-
  The tables of apps/api/prisma/schema.prisma that the booking flow reads and writes.

  A table whose rows are looked up by a unique column is an `AList` under that column, an
  append-only table is a list in creation order. The `@unique` columns that no key covers
  (`Booking.onChainBookingId`, `Booking.slotId`, `PaymentTransaction.hash`) are checked by
  the inserts below, as the database does.

  Two simplifications. A booking row holds the addresses of its renter and host where the
  schema holds `WalletIdentity` ids: `WalletIdentity.address` is unique and never updated.
  `DateTime` columns are instants, in milliseconds since the epoch. Columns that no modelled
  function reads (`createdAt`, `updatedAt`, the primary keys of the append-only tables) are
  left out.
-/
import PovDeposit.Contract.Escrow
import PovDeposit.Api.Runtime

namespace PovDeposit.Api

open PovDeposit.Contract (Address)

inductive BookingStatus where
  | pendingFunding
  | funded
  | checkedIn
  | completed
  | cancelled
  | renterNoShow
  | hostNoShow
  | disputed
  | refunded
  | released
  | split
  | expired
  deriving DecidableEq, Repr

inductive TransactionKind where
  | fund
  | refund
  | release
  | split
  deriving DecidableEq, Repr

structure Property where
  id : String
  slug : String
  host : Address
  active : Bool
  deriving DecidableEq, Repr

structure ViewingSlot where
  id : String
  propertyId : String
  startsAt : Int
  deriving DecidableEq, Repr

/-- A row of `Booking`. -/
structure BookingRow where
  id : String
  onChainBookingId : String
  propertyId : String
  slotId : String
  renter : Address
  host : Address
  depositAmount : Int
  asset : String
  visitTime : Int
  evidenceHash : String
  checkInProofHash : Option String
  status : BookingStatus
  version : Nat
  deriving DecidableEq, Repr

structure BookingStatusHistory where
  bookingId : String
  fromStatus : Option BookingStatus
  toStatus : BookingStatus
  actor : Address
  txHash : Option String
  deriving DecidableEq, Repr

structure PaymentTransaction where
  bookingId : String
  hash : String
  kind : TransactionKind
  amount : Int
  ledger : Nat
  confirmedAt : Int
  deriving DecidableEq, Repr

structure CheckInChallenge where
  bookingId : String
  nonceHash : String
  expiresAt : Int
  consumedAt : Option Int
  deriving DecidableEq, Repr

structure Db where
  /-- `WalletIdentity`: the network under each address -/
  wallets : AList fun _ : Address => String
  properties : List Property
  slots : List ViewingSlot
  /-- under `Booking.id` -/
  bookings : AList fun _ : String => BookingRow
  history : List BookingStatusHistory
  payments : List PaymentTransaction
  /-- under `CheckInChallenge.nonceHash` -/
  challenges : AList fun _ : String => CheckInChallenge

/-- The booking rows, in no particular order. -/
def Db.rows (db : Db) : List BookingRow := db.bookings.entries.map Sigma.snd

/-- A text names the row whose id it spells. -/
def Db.Names (R : Runtime) (db : Db) (text : String) (row : BookingRow) : Prop :=
  ∃ id, R.uuid text = some id ∧ db.bookings.lookup id = some row

/-- `booking.create`: the primary key and the unique columns must be unused. -/
def Db.insertBooking (db : Db) (row : BookingRow) : Except String Db :=
  if (db.bookings.lookup row.id).isSome ∨ db.rows.any fun r =>
      r.onChainBookingId = row.onChainBookingId || r.slotId = row.slotId then
    .error "Unique constraint failed"
  else .ok { db with bookings := db.bookings.insert row.id row }

/-- `paymentTransaction.create`: `hash` must be unused. -/
def Db.insertPayment (db : Db) (payment : PaymentTransaction) : Except String Db :=
  if db.payments.any fun p => p.hash = payment.hash then .error "Unique constraint failed"
  else .ok { db with payments := db.payments ++ [payment] }

/-- `bookingStatusHistory.create` -/
def Db.insertHistory (db : Db) (row : BookingStatusHistory) : Db :=
  { db with history := db.history ++ [row] }

/-- `checkInChallenge.create`: `nonceHash` must be unused. -/
def Db.insertChallenge (db : Db) (challenge : CheckInChallenge) : Except String Db :=
  if (db.challenges.lookup challenge.nonceHash).isSome then .error "Unique constraint failed"
  else .ok { db with challenges := db.challenges.insert challenge.nonceHash challenge }

/-- `booking.updateMany`: writes the row under `id` if it exists and meets the condition, and
    reports how many rows it wrote. -/
def Db.updateMany (db : Db) (id : String) (where_ : BookingRow → Bool)
    (data : BookingRow → BookingRow) : Nat × Db :=
  match db.bookings.lookup id with
  | none => (0, db)
  | some row =>
    if where_ row then (1, { db with bookings := db.bookings.insert id (data row) }) else (0, db)

end PovDeposit.Api
