/-
  The API: `BookingController` (apps/api/src/booking/booking.controller.ts) over the check-in
  service, the event verifier and the workflow, beside the authentication of wallets.

  A request is an `Exchange`: who sent it, what it asks, and where its handler stands. `sender`
  is the wallet that the sender of a request can sign for; the handlers do not read it.
  A handler runs from one `await` to the next, on any number of instances, so the steps of
  different exchanges interleave in any order. `create` is one step, as in the workflow.
  The routes that only read (`get`, `activity`) and `serialize` are in `Api/Reading.lean`.

  A route takes the booking id as the request spells it. The answers of the RPC server are part
  of the action.
-/
import PovDeposit.Api.Moves
import PovDeposit.Api.CheckIn
import PovDeposit.Api.Verifier
import PovDeposit.Api.WalletAuth

namespace PovDeposit.Api

open PovDeposit.Lib PovDeposit.Lib.Outcome
open PovDeposit.Contract (Address)

/-- What the process is started with. `contractId` is empty where it is not set. -/
structure Config where
  runtime : Runtime
  keys : WalletAuth.Keys
  network : String
  contractId : String
  origins : List String

/-! ## Request bodies -/

/-- `/^[1-9]\d{0,19}$/` -/
def isAmount (s : String) : Bool :=
  match s.toList with
  | [] => false
  | c :: cs => c.isDigit && c ≠ '0' && cs.length ≤ 19 && cs.all Char.isDigit

/-- `BigInt(s)` of a string of digits. -/
def readAmount (s : String) : Int :=
  s.toList.foldl (fun (n : Int) c => 10 * n + (c.toNat - '0'.toNat : Nat)) 0

structure CreateInput where
  listingId : String
  renter : Address
  host : Address
  depositAmount : String
  visitTime : String
  evidenceHash : String
  deriving DecidableEq, Repr

/-- `createInput.safeParse` -/
def CreateInput.parse (R : Runtime) (body : CreateInput) : Option Workflow.CreateBooking :=
  if isText 100 body.listingId && isText 100 body.renter && isText 100 body.host &&
      isAmount body.depositAmount && R.isoDatetime body.visitTime && isHash body.evidenceHash then
    some ⟨body.listingId, body.renter, body.host, readAmount body.depositAmount, body.visitTime,
      body.evidenceHash⟩
  else none

/-- A request to one of the routes under `:id`, with its body. -/
inductive Request where
  | fund (id transactionHash : String)
  | cancel (id : String) (actor : Address) (transactionHash : String)
  | checkInChallenge (id : String) (actor : Address)
  | checkIn (id : String) (actor : Address) (token : String)
  | confirm (id : String) (actor : Address) (transactionHash : String)
  deriving DecidableEq, Repr

/-- The schemas of the routes. -/
def Request.valid : Request → Bool
  | .fund _ hash => isHash hash
  | .cancel _ actor hash => isText 100 actor && isHash hash
  | .checkInChallenge _ actor => isText 100 actor
  | .checkIn _ actor token => isText 100 actor && isText 2048 token
  | .confirm _ actor hash => isText 100 actor && isHash hash

def Request.id : Request → String
  | .fund id _ => id
  | .cancel id _ _ => id
  | .checkInChallenge id _ => id
  | .checkIn id _ _ => id
  | .confirm id _ _ => id

/-- What `fund`, `cancel` and `confirm` verify, and the call of the workflow that follows. -/
structure Check where
  transactionHash : String
  expectedEvent : String
  call : Workflow.Verification → Workflow.Call

/-- `verifyFunding`, `verifyRefund` and `verifySettlement` -/
def Request.check? : Request → Option Check
  | .fund id hash => some ⟨hash, "booking_funded", fun v => .fund id hash (some v)⟩
  | .cancel id actor hash => some ⟨hash, "deposit_refunded", fun v => .refund id actor hash (some v)⟩
  | .confirm id actor hash => some ⟨hash, "visit_confirmed", fun _ => .confirm id actor hash⟩
  | .checkInChallenge _ _ => none
  | .checkIn _ _ _ => none

/-! ## Exchanges -/

/-- Where the handler of a request stands. -/
inductive Phase where
  /-- the body has passed its schema -/
  | received
  /-- `requireBooking` returned -/
  | found (booking : Workflow.Booking)
  /-- `issue` has found the booking of the payload -/
  | issuing (payload : CheckInPayload)
  | answered (token : String)
  /-- `consume` has found the challenge of the payload -/
  | spending (payload : CheckInPayload)
  /-- about to call the workflow -/
  | ready (call : Workflow.Call)
  | forwarded
  | rejected (error : String)
  deriving DecidableEq, Repr

structure Exchange where
  sender : Address
  request : Request
  phase : Phase
  deriving DecidableEq, Repr

structure Server where
  flow : Workflow.State
  exchanges : List Exchange
  auth : WalletAuth.State

abbrev Server.db (s : Server) : Db := s.flow.db

def Server.exchange? (s : Server) (i : Nat) : Option Exchange := s.exchanges[i]?

/-- Exchange `i` becomes `e`. -/
def Server.turn (s : Server) (i : Nat) (e : Exchange) : Server :=
  { s with exchanges := s.exchanges.set i e }

/-- A step of the workflow. -/
def Server.drive (C : Config) (s : Server) (a : Workflow.Action) : Option Server :=
  (Workflow.step C.runtime C.network s.flow a).map fun flow => { s with flow := flow }

/-- `requireBooking`, and the check of `checkInChallenge` on what it returned. -/
def lookUp (R : Runtime) (db : Db) (request : Request) : Except String Workflow.Booking := do
  let booking ← Workflow.get R db request.id
  match request with
  | .checkInChallenge _ actor =>
      if booking.host ≠ actor then .error "Only the host can issue a check-in challenge"
      else return booking
  | _ => return booking

inductive Action where
  | create (sender : Address) (now : Int) (uuid : String) (body : CreateInput)
  | receive (sender : Address) (request : Request)
  | find (i : Nat)
  /-- the verification of exchange `i`, with the answers of the RPC server -/
  | verify (i : Nat) (transaction : TransactionAnswer) (events : List EventInfo)
  /-- `issue` of exchange `i` up to its first statement, and then the second -/
  | issue (i : Nat) (now : Int) (nonce : String)
  | store (i : Nat)
  /-- `consume` of exchange `i` up to the first statement, and then the second; the clock is
      read once before the transaction and twice in it -/
  | consume (i : Nat) (now now' : Int)
  | spend (i : Nat) (now : Int)
  | forward (i : Nat)
  /-- a statement or an RPC call of exchange `i` fails, or its instance goes down -/
  | drop (i : Nat) (error : String)
  /-- call `k` of the workflow -/
  | advance (k : Nat)
  | fail (k : Nat) (error : String)
  | stop (k : Nat)
  | auth (sender : Address) (action : WalletAuth.Action)
  deriving DecidableEq, Repr

/-- The sender of the request that an action is the arrival of. -/
def Action.sender : Action → Option Address
  | .create sender _ _ _ => some sender
  | .receive sender _ => some sender
  | .auth sender _ => some sender
  | _ => none

/-- The phase after a step that ended with a result or an error. -/
def Phase.settle {α : Type} (next : α → Phase) : Except String α → Phase
  | .ok a => next a
  | .error e => .rejected e

/-- Whether the handler is still at work. -/
def Phase.atWork : Phase → Bool
  | .answered _ | .forwarded | .rejected _ => false
  | _ => true

def step (C : Config) (s : Server) : Action → Option Server
  | .create _ now uuid body =>
      match body.parse C.runtime with
      | some input => s.drive C (.create now uuid input)
      | none => some s
  | .receive sender request =>
      let phase := if request.valid then .received else .rejected "Invalid input"
      some { s with exchanges := s.exchanges ++ [⟨sender, request, phase⟩] }
  | .find i => (s.exchange? i).bind fun e =>
      match e.request, e.phase with
      | .checkIn _ _ _, _ => none
      | request, .received =>
          let result := lookUp C.runtime s.db request
          some (s.turn i { e with phase := (Phase.settle .found result) })
      | _, _ => none
  | .verify i transaction events => (s.exchange? i).bind fun e =>
      match e.request.check?, e.phase with
      | some check, .found booking =>
          let result := verifyEvent C.contractId transaction events check.transactionHash
            booking.onChainBookingId check.expectedEvent
          some (s.turn i { e with phase := (Phase.settle (fun v => .ready (check.call v)) result) })
      | _, _ => none
  | .issue i now nonce => (s.exchange? i).bind fun e =>
      match e.request, e.phase with
      | .checkInChallenge id _, .found booking =>
          let payload := CheckIn.newPayload id booking.renter nonce now
          let result := CheckIn.findBooking C.runtime s.db payload
          some (s.turn i { e with phase := (Phase.settle (fun _ => .issuing payload) result) })
      | _, _ => none
  | .store i => (s.exchange? i).bind fun e =>
      match e.phase with
      | .issuing payload =>
          match CheckIn.storeChallenge C.runtime s.db payload with
          | .ok db => (s.drive C (.others db.wallets db.challenges)).map fun s =>
              s.turn i { e with phase := .answered (CheckIn.token C.runtime payload) }
          | .error error => some (s.turn i { e with phase := .rejected error })
      | _ => none
  | .consume i now now' => (s.exchange? i).bind fun e =>
      match e.request, e.phase with
      | .checkIn id actor token, .received =>
          let result := do
            let payload ← CheckIn.readToken C.runtime token id actor now
            CheckIn.findChallenge C.runtime s.db payload id now'
            return payload
          some (s.turn i { e with phase := (Phase.settle .spending result) })
      | _, _ => none
  | .spend i now => (s.exchange? i).bind fun e =>
      match e.request, e.phase with
      | .checkIn id actor _, .spending payload =>
          match CheckIn.spendChallenge C.runtime s.db payload now with
          | .ok db => (s.drive C (.others db.wallets db.challenges)).map fun s =>
              let proofHash := C.runtime.sha256 payload.nonce
              s.turn i { e with phase := .ready (.checkIn id actor proofHash) }
          | .error error => some (s.turn i { e with phase := .rejected error })
      | _, _ => none
  | .forward i => (s.exchange? i).bind fun e =>
      match e.phase with
      | .ready call => (s.drive C (.call call)).map fun s =>
          s.turn i { e with phase := .forwarded }
      | _ => none
  | .drop i error => (s.exchange? i).bind fun e =>
      if e.phase.atWork then some (s.turn i { e with phase := .rejected error }) else none
  | .advance k => s.drive C (.advance k)
  | .fail k error => s.drive C (.fail k error)
  | .stop k => s.drive C (.stop k)
  | .auth _ action =>
      (WalletAuth.step C.runtime C.keys C.origins C.network s.db.wallets s.auth action).bind
        fun (wallets, auth) => (s.drive C (.others wallets s.db.challenges)).map fun s =>
          { s with auth := auth }

/-- No request was ever made. -/
structure Fresh (s : Server) : Prop where
  flow : Workflow.Fresh s.flow
  exchanges : s.exchanges = []
  auth : WalletAuth.Fresh s.auth

def machine (C : Config) : Machine Server Action where
  init := Fresh
  step := step C

end PovDeposit.Api
