/-
  One check-in request, with everything that can go wrong around it
  (`checkIn` of apps/api/src/booking/booking.controller.ts).

  The handler runs six statements: two in the transaction of `consume`, and then the four of
  the workflow's `checkIn`, none of which share a transaction with each other or with
  `consume`. What each of them finds in the tables is a parameter, and so is whether it
  fails, so that other requests may write anything in between. The challenge is spent before
  the workflow looks at the booking: a request for a booking that is not funded uses up its
  challenge (`spent_and_refused`). `all_or_nothing_iff` is the exact condition under which a
  request does all it should or nothing.
-/
import PovDeposit.Api.Requests

namespace PovDeposit.Api.CheckInRequest

open PovDeposit.Lib PovDeposit.Lib.Outcome
open PovDeposit.Contract (Address)
open CheckIn (hashNonce)

/-- A statement of the request: the tables it finds, the time, and its error if it fails. -/
structure Moment where
  db : Db
  now : Int
  error : Option String

def Moment.run {α : Type} (m : Moment) (statement : Db → Except String α) : Except String α :=
  match m.error with
  | some e => .error e
  | none => statement m.db

/-- The statements of the request in their order, and the time at which its token is read. -/
structure Moments where
  readAt : Int
  findUnique : Moment
  /-- the update of the challenge, with the commit -/
  consumed : Moment
  get : Moment
  updated : Moment
  history : Moment
  reload : Moment

/-- What the request answers, and what it has written. -/
structure Response where
  result : Except String Workflow.Booking
  /-- the nonce hash of the challenge it has spent -/
  spent : Option String
  /-- the booking row it has written -/
  moved : Option BookingRow

/-- `CheckInChallengeService.consume` -/
def consume (R : Runtime) (w : Moments) (token bookingId : String) (renter : Address) :
    Except String CheckInPayload := do
  let payload ← CheckIn.readToken R token bookingId renter w.readAt
  w.findUnique.run fun db => CheckIn.findChallenge R db payload bookingId w.findUnique.now
  let _ ← w.consumed.run fun db => CheckIn.spendChallenge R db payload w.consumed.now
  return payload

/-- `booking.updateMany` and the test of its count -/
def update (op : Workflow.Operation) (db : Db) : Except String Db :=
  let (count, db) := db.updateMany op.id op.admits op.apply
  if count ≠ 1 then .error op.updateError else .ok db

/-- `bookingStatusHistory.create`, and the booking as it is then. -/
def record (R : Runtime) (w : Moments) (op : Workflow.Operation) (booking : Workflow.Booking) :
    Except String Workflow.Booking := do
  let _ ← w.history.run fun db => Except.ok (db.insertHistory (op.historyRow booking))
  w.reload.run fun db => Workflow.get R db op.id

/-- `get` and the checks on what it found, with the id that the statement has read. -/
def readAndCheck (R : Runtime) (id : String) (actor : Address) (proofHash : String) (db : Db) :
    Except String (String × Workflow.Booking) := do
  let id ← R.readUuid id
  let booking ← (Workflow.checkIn id actor proofHash).readAndCheck db
  return (id, booking)

/-- `BookingWorkflowService.checkIn`, with the row it has written. -/
def checkIn (R : Runtime) (w : Moments) (id : String) (actor : Address) (proofHash : String) :
    Except String Workflow.Booking × Option BookingRow :=
  match w.get.run (readAndCheck R id actor proofHash) with
  | .error e => (.error e, none)
  | .ok (id, booking) =>
    let op := Workflow.checkIn id actor proofHash
    match w.updated.run (update op) with
    | .error e => (.error e, none)
    | .ok db => (record R w op booking, db.bookings.lookup id)

/-- The handler. -/
def respond (R : Runtime) (w : Moments) (id : String) (actor : Address) (token : String) :
    Response :=
  if ¬ (Request.checkIn id actor token).valid then ⟨.error "Invalid input", none, none⟩
  else match consume R w token id actor with
    | .error e => ⟨.error e, none, none⟩
    | .ok payload =>
        let (result, moved) := checkIn R w id actor (R.sha256 payload.nonce)
        ⟨result, some (hashNonce R payload.nonce), moved⟩

/-- It succeeded, has spent an unspent challenge, and has moved the booking to CHECKED_IN under
    the hash of its nonce; or it failed and has written neither of the two. -/
def AllOrNothing (R : Runtime) (w : Moments) (id : String) (actor : Address) (token : String) :
    Prop :=
  match (respond R w id actor token).result with
  | .ok _ => ∃ payload challenge row,
      CheckIn.readToken R token id actor w.readAt = .ok payload ∧
      w.consumed.db.challenges.lookup (hashNonce R payload.nonce) = some challenge ∧
      challenge.consumedAt = none ∧
      (respond R w id actor token).spent = some (hashNonce R payload.nonce) ∧
      w.updated.db.Names R id row ∧
      (respond R w id actor token).moved = some { row with
        status := .checkedIn
        checkInProofHash := some (R.sha256 payload.nonce)
        version := row.version + 1 }
  | .error _ => (respond R w id actor token).spent = none ∧ (respond R w id actor token).moved = none

/-! ## When it is -/

/-- The body is well formed, and the token in it is that of a challenge for this booking that
    both statements of `consume` find unspent, the first one in time. -/
structure Redeemable (R : Runtime) (w : Moments) (id : String) (actor : Address) (token : String)
    (payload : CheckInPayload) : Prop where
  valid : (Request.checkIn id actor token).valid = true
  read : CheckIn.readToken R token id actor w.readAt = .ok payload
  found : w.findUnique.error = none ∧
    ∃ c, w.findUnique.db.challenges.lookup (hashNonce R payload.nonce) = some c ∧
      c.bookingId = id ∧ c.consumedAt = none ∧ w.findUnique.now < c.expiresAt
  unspent : w.consumed.error = none ∧
    ∃ c, w.consumed.db.challenges.lookup (hashNonce R payload.nonce) = some c ∧ c.consumedAt = none

/-- A row that `checkIn` accepts. -/
def Ready (R : Runtime) (db : Db) (id : String) (actor : Address) : Prop :=
  ∃ row, db.Names R id row ∧ row.status = .funded ∧ row.renter = actor

/-- The booking is funded and the actor's when it is read and when it is updated, it is there
    when it is read again, and none of the four statements fails. -/
structure Unhindered (R : Runtime) (w : Moments) (id : String) (actor : Address) : Prop where
  read : w.get.error = none ∧ Ready R w.get.db id actor
  update : w.updated.error = none ∧ Ready R w.updated.db id actor
  history : w.history.error = none
  reload : w.reload.error = none ∧ ∃ row, w.reload.db.Names R id row

section Exact

variable {R : Runtime} {w : Moments} {id token : String} {actor : Address}

theorem run_eq_ok {α : Type} {m : Moment} {statement : Db → Except String α} {a : α} :
    m.run statement = .ok a ↔ m.error = none ∧ statement m.db = .ok a := by
  unfold Moment.run
  cases m.error <;> simp

theorem consume_eq_ok {payload : CheckInPayload} (hvalid : (Request.checkIn id actor token).valid) :
    consume R w token id actor = .ok payload ↔ Redeemable R w id actor token payload := by
  simp only [consume, bind_eq_ok, pure_eq_ok, run_eq_ok, CheckIn.findChallenge_eq_ok,
    CheckIn.spendChallenge_eq_ok]
  constructor
  · rintro ⟨p, hread, -, ⟨herror, hfound⟩, db, ⟨herror', c, hc, hunspent, -⟩, rfl⟩
    exact ⟨hvalid, hread, ⟨herror, hfound⟩, ⟨herror', c, hc, hunspent⟩⟩
  · rintro ⟨-, hread, hfound, herror, c, hc, hunspent⟩
    exact ⟨payload, hread, (), hfound, _, ⟨herror, c, hc, hunspent, rfl⟩, rfl⟩

/-- The checks that `checkIn` makes on the booking it has read. -/
theorem check_checkIn {b : Workflow.Booking} {proofHash : String} (hhash : isHash proofHash = true) :
    (Workflow.checkIn id actor proofHash).check b = .ok () ↔ b.state = .funded ∧ b.renter = actor := by
  unfold Workflow.Operation.check
  rw [guard_eq_ok]
  by_cases hactor : b.renter = actor
  · simp [Workflow.checkIn, Workflow.Role.of, Option.filter_some, hactor, hhash]
  · simp [Workflow.checkIn, Workflow.Role.of, Option.filter_some, hactor]

theorem readAndCheck_checkIn {db : Db} {key proofHash : String} (hid : R.uuid id = some key)
    (hhash : isHash proofHash = true) :
    (∃ b, (Workflow.checkIn key actor proofHash).readAndCheck db = .ok b) ↔ Ready R db id actor := by
  simp only [Workflow.readAndCheck_eq_ok, check_checkIn hhash]
  constructor
  · rintro ⟨b, row, hrow, rfl, hstate, hrenter⟩
    exact ⟨row, ⟨key, hid, hrow⟩, hstate, hrenter⟩
  · rintro ⟨row, ⟨x, hx, hrow⟩, hstate, hrenter⟩
    obtain rfl : key = x := Option.some.inj (hid.symm.trans hx)
    exact ⟨_, row, hrow, rfl, hstate, hrenter⟩

theorem update_eq_ok {op : Workflow.Operation} {db db' : Db} :
    update op db = .ok db' ↔ ∃ row, db.bookings.lookup op.id = some row ∧ op.admits row = true ∧
      db' = { db with bookings := db.bookings.insert op.id (op.apply row) } := by
  unfold update
  constructor
  · intro h
    rcases updateMany_cases db op.id op.admits op.apply with ⟨row, hrow, hadmits, hupdate⟩ | hnone
    · rw [hupdate] at h
      exact ⟨row, hrow, hadmits, (Except.ok.inj h).symm⟩
    · rw [hnone] at h
      cases h
  · rintro ⟨row, hrow, hadmits, rfl⟩
    simp [Db.updateMany, hrow, hadmits]

theorem record_eq_ok {op : Workflow.Operation} {booking : Workflow.Booking} :
    (∃ b, record R w op booking = .ok b) ↔ w.history.error = none ∧ w.reload.error = none ∧
      ∃ row, w.reload.db.Names R op.id row := by
  simp only [record, bind_eq_ok, run_eq_ok, Workflow.get_eq_ok]
  constructor
  · rintro ⟨b, db, ⟨hhistory, -⟩, hreload, row, hrow, -⟩
    exact ⟨hhistory, hreload, row, hrow⟩
  · rintro ⟨hhistory, hreload, row, hrow⟩
    exact ⟨_, _, ⟨hhistory, rfl⟩, hreload, row, hrow, rfl⟩

theorem readAndCheck_eq_ok {db : Db} {key proofHash : String} {b : Workflow.Booking} :
    readAndCheck R id actor proofHash db = .ok (key, b) ↔
      R.uuid id = some key ∧ (Workflow.checkIn key actor proofHash).readAndCheck db = .ok b := by
  unfold readAndCheck
  simp only [bind_eq_ok, readUuid_eq_ok, pure_eq_ok, Prod.mk.injEq]
  constructor
  · rintro ⟨_, hid, _, hread, rfl, rfl⟩
    exact ⟨hid, hread⟩
  · rintro ⟨hid, hread⟩
    exact ⟨key, hid, b, hread, rfl, rfl⟩

/-- Where nothing is in its way, `checkIn` succeeds, and it has written the row. -/
theorem checkIn_of_unhindered {proofHash : String} (hhash : isHash proofHash = true)
    (h : Unhindered R w id actor) : ∃ b row, w.updated.db.Names R id row ∧
      checkIn R w id actor proofHash = (.ok b, some { row with
        status := .checkedIn
        checkInProofHash := some proofHash
        version := row.version + 1 }) := by
  obtain ⟨row, ⟨key, hid, hrow⟩, hstatus, hrenter⟩ := h.update.2
  obtain ⟨booking, hread⟩ := (readAndCheck_checkIn hid hhash).mpr h.read.2
  have hget := run_eq_ok.mpr ⟨h.read.1, readAndCheck_eq_ok.mpr ⟨hid, hread⟩⟩
  have hadmits : (Workflow.checkIn key actor proofHash).admits row = true :=
    Workflow.admits_iff.mpr ⟨hstatus, fun p hp => by cases hp; exact hrenter⟩
  have hupdate := update_eq_ok.mpr ⟨row, hrow, hadmits, rfl⟩
  -- what was read under the text is read again under the id
  obtain ⟨found, key', hid', hfound⟩ := h.reload.2
  obtain rfl : key = key' := Option.some.inj (hid.symm.trans hid')
  obtain ⟨b, hb⟩ : ∃ b, record R w (Workflow.checkIn key actor proofHash) booking = .ok b :=
    record_eq_ok.mpr ⟨h.history, h.reload.1, found, key, R.uuid_idem _ _ hid, hfound⟩
  refine ⟨b, row, ⟨key, hid, hrow⟩, ?_⟩
  simp only [checkIn, hget, run_eq_ok.mpr ⟨h.update.1, hupdate⟩, hb]
  exact congrArg (Prod.mk _) (AList.lookup_insert _)

/-- It succeeds nowhere else. -/
theorem unhindered_of_checkIn {proofHash : String} {b : Workflow.Booking}
    {moved : Option BookingRow} (hhash : isHash proofHash = true)
    (h : checkIn R w id actor proofHash = (.ok b, moved)) : Unhindered R w id actor := by
  unfold checkIn at h
  simp only at h
  split at h
  · cases h
  · rename_i key booking hget
    split at h
    · cases h
    · rename_i db hupdate
      obtain ⟨hgetNone, hgot⟩ := run_eq_ok.mp hget
      obtain ⟨hid, hread⟩ := readAndCheck_eq_ok.mp hgot
      obtain ⟨hupdateNone, hdb⟩ := run_eq_ok.mp hupdate
      obtain ⟨row, hrow, hadmits, -⟩ := update_eq_ok.mp hdb
      obtain ⟨hstatus, hparty⟩ := Workflow.admits_iff.mp hadmits
      obtain ⟨hhistory, hreload, found, key', hid', hfound⟩ := record_eq_ok.mp ⟨b, (Prod.mk.inj h).1⟩
      obtain rfl : key = key' := Option.some.inj ((R.uuid_idem _ _ hid).symm.trans hid')
      exact ⟨⟨hgetNone, (readAndCheck_checkIn hid hhash).mp ⟨booking, hread⟩⟩,
        ⟨hupdateNone, row, ⟨key, hid, hrow⟩, hstatus, hparty _ rfl⟩, hhistory, hreload, found, key,
        hid, hfound⟩

/-- A request whose challenge cannot be redeemed writes nothing. -/
theorem allOrNothing_of_not_redeemable
    (h : ¬ ∃ payload, Redeemable R w id actor token payload) : AllOrNothing R w id actor token := by
  obtain ⟨e, hrespond⟩ : ∃ e, respond R w id actor token = ⟨.error e, none, none⟩ := by
    by_cases hvalid : (Request.checkIn id actor token).valid = true
    · cases hconsume : consume R w token id actor with
      | error e => exact ⟨e, by simp [respond, hvalid, hconsume]⟩
      | ok payload => exact absurd ⟨payload, (consume_eq_ok hvalid).mp hconsume⟩ h
    · exact ⟨"Invalid input", by simp [respond, hvalid]⟩
  simp [AllOrNothing, hrespond]

/-- One whose challenge can be redeemed spends it, whatever comes after. -/
theorem allOrNothing_iff_of_redeemable (hdigest : ∀ s, isHash (R.sha256 s) = true)
    {payload : CheckInPayload} (hredeemed : Redeemable R w id actor token payload) :
    AllOrNothing R w id actor token ↔ Unhindered R w id actor := by
  have hconsume := (consume_eq_ok hredeemed.valid).mpr hredeemed
  have hrespond : respond R w id actor token =
      ⟨(checkIn R w id actor (R.sha256 payload.nonce)).1, some (hashNonce R payload.nonce),
        (checkIn R w id actor (R.sha256 payload.nonce)).2⟩ := by
    simp [respond, hredeemed.valid, hconsume]
  constructor
  · intro h
    cases hcheckIn : checkIn R w id actor (R.sha256 payload.nonce) with
    | mk result moved =>
      cases result with
      | ok b => exact unhindered_of_checkIn (hdigest _) hcheckIn
      | error e =>
        -- it failed with its challenge spent
        rw [AllOrNothing, hrespond, hcheckIn] at h
        cases h.1
  · intro h
    obtain ⟨b, row, hrow, hcheckIn⟩ := checkIn_of_unhindered (hdigest payload.nonce) h
    obtain ⟨-, challenge, hchallenge, hunspent⟩ := hredeemed.unspent
    rw [AllOrNothing, hrespond, hcheckIn]
    exact ⟨payload, challenge, row, hredeemed.read, hchallenge, hunspent, rfl, hrow, rfl⟩

end Exact

/-- **A check-in request is all or nothing, if nothing is in its way once its challenge is
    spent.** Whatever the tables hold at each of its statements, and whichever of them fail:
    a request does all it should or nothing if and only if, in case its challenge can be
    redeemed, the booking is funded and the actor's when it is read and updated, and no
    later statement fails. -/
theorem all_or_nothing_iff (R : Runtime) (hdigest : ∀ s, isHash (R.sha256 s) = true) (w : Moments)
    (id : String) (actor : Address) (token : String) :
    AllOrNothing R w id actor token ↔
      ((∃ payload, Redeemable R w id actor token payload) → Unhindered R w id actor) := by
  by_cases hredeemable : ∃ payload, Redeemable R w id actor token payload
  · obtain ⟨payload, hredeemed⟩ := hredeemable
    rw [allOrNothing_iff_of_redeemable hdigest hredeemed]
    exact ⟨fun h _ => h, fun h => h ⟨payload, hredeemed⟩⟩
  · exact iff_of_true (allOrNothing_of_not_redeemable hredeemable) fun h => absurd h hredeemable

/-- No other request writes, and nothing fails: the statements up to the update find the tables
    `db`, but for the challenge that the request itself has spent. -/
structure Alone (w : Moments) (db : Db) : Prop where
  findUnique : w.findUnique.db = db ∧ w.findUnique.error = none
  consumed : w.consumed.db = db ∧ w.consumed.error = none
  get : w.get.db.bookings = db.bookings ∧ w.get.error = none
  updated : w.updated.db.bookings = db.bookings ∧ w.updated.error = none
  history : w.history.error = none
  reload : w.reload.error = none ∧
    ∀ id row, db.bookings.lookup id = some row → ∃ row', w.reload.db.bookings.lookup id = some row'

/-! ## A sample -/

section Sample

open Workflow (sampleRuntime samplePayload)

/-- `sampleRuntime` with a digest for every text. -/
def hashingRuntime : Runtime :=
  { sampleRuntime with
    sha256 := fun s =>
      if s = samplePayload.nonce then
        "6c86c6aac5fb24bcf5d9939cb7d7d5645ce39418f449e03b262dd4fa14b4b92b"
      else "e3b0c44298fc1c149afbf4c8996fb92427ae41e4649b934ca495991b7852b855" }

theorem digest_hashingRuntime (s : String) : isHash (hashingRuntime.sha256 s) = true := by
  unfold hashingRuntime
  simp only
  split <;> decide +kernel

theorem carries_of_digest {R : Runtime} {payload : CheckInPayload} (h : CheckIn.Carries R payload)
    {sha256 : String → String} (hdigest : isHash (sha256 payload.nonce) = true) :
    CheckIn.Carries { R with sha256 := sha256 } payload :=
  ⟨h.encoded, h.signature, h.decoded, h.length, hdigest⟩

theorem carries_hashingRuntime : CheckIn.Carries hashingRuntime samplePayload :=
  carries_of_digest carries_sample (digest_hashingRuntime _)

/-- The tables with the booking of `samplePayload` in a given state, and its challenge. -/
def sampleDb (status : BookingStatus) (consumedAt : Option Int) : Db :=
  { Workflow.listed.db with
    bookings := AList.singleton "3b241101-e2bb-4255-8caf-4136c566a962"
      { id := "3b241101-e2bb-4255-8caf-4136c566a962"
        onChainBookingId := "4261549847195894357"
        propertyId := "property"
        slotId := "slot"
        renter := "renter"
        host := "host"
        depositAmount := 1000000
        asset := "native"
        visitTime := 1893492000000
        evidenceHash := "6c86c6aac5fb24bcf5d9939cb7d7d5645ce39418f449e03b262dd4fa14b4b92b"
        checkInProofHash := none
        status := status
        version := 0 }
    challenges := AList.singleton "6c86c6aac5fb24bcf5d9939cb7d7d5645ce39418f449e03b262dd4fa14b4b92b"
      { bookingId := "3b241101-e2bb-4255-8caf-4136c566a962"
        nonceHash := "6c86c6aac5fb24bcf5d9939cb7d7d5645ce39418f449e03b262dd4fa14b4b92b"
        expiresAt := 1893488520000
        consumedAt := consumedAt } }

/-- The statements of the only request, a minute before the challenge expires. -/
def sampleMoments (status later : BookingStatus) : Moments where
  readAt := 1893488460000
  findUnique := ⟨sampleDb status none, 1893488460000, none⟩
  consumed := ⟨sampleDb status none, 1893488460000, none⟩
  get := ⟨sampleDb status (some 1893488460000), 1893488460000, none⟩
  updated := ⟨sampleDb status (some 1893488460000), 1893488460000, none⟩
  history := ⟨sampleDb later (some 1893488460000), 1893488460000, none⟩
  reload := ⟨sampleDb later (some 1893488460000), 1893488460000, none⟩

theorem redeemable_sample (status later : BookingStatus) :
    Redeemable hashingRuntime (sampleMoments status later) "3b241101-e2bb-4255-8caf-4136c566a962"
      "renter" (CheckIn.token hashingRuntime samplePayload) samplePayload := by
  have hencodes : CheckIn.Encodes hashingRuntime (CheckIn.newPayload
      "3b241101-e2bb-4255-8caf-4136c566a962" "renter" samplePayload.nonce 1893488400000) :=
    carries_hashingRuntime.encodes
  have hvalid : (Request.checkIn "3b241101-e2bb-4255-8caf-4136c566a962" "renter"
      (CheckIn.token hashingRuntime samplePayload)).valid = true := by
    simp only [Request.valid, carries_hashingRuntime.length, Bool.and_true]
    decide
  have hread := CheckIn.readToken_token hencodes (by decide : (1893488460000 : Int) < _)
  have hfound : (sampleDb status none).challenges.lookup
      (hashNonce hashingRuntime samplePayload.nonce) = some
        ⟨"3b241101-e2bb-4255-8caf-4136c566a962",
          "6c86c6aac5fb24bcf5d9939cb7d7d5645ce39418f449e03b262dd4fa14b4b92b", 1893488520000, none⟩ := by
    simp only [hashNonce, hashingRuntime]
    rfl
  have hlive : (1893488460000 : Int) < 1893488520000 := by decide
  exact ⟨hvalid, hread, ⟨rfl, _, hfound, rfl, rfl, hlive⟩, rfl, _, hfound, rfl⟩

theorem all_or_nothing_funded : AllOrNothing hashingRuntime (sampleMoments .funded .checkedIn)
    "3b241101-e2bb-4255-8caf-4136c566a962" "renter" (CheckIn.token hashingRuntime samplePayload) := by
  have hready : Ready hashingRuntime (sampleDb .funded (some 1893488460000))
      "3b241101-e2bb-4255-8caf-4136c566a962" "renter" := ⟨_, ⟨_, rfl, rfl⟩, rfl, rfl⟩
  have hfree : Unhindered hashingRuntime (sampleMoments .funded .checkedIn)
      "3b241101-e2bb-4255-8caf-4136c566a962" "renter" :=
    ⟨⟨rfl, hready⟩, ⟨rfl, hready⟩, rfl, rfl, _, _, rfl, rfl⟩
  rw [all_or_nothing_iff hashingRuntime digest_hashingRuntime]
  exact fun _ => hfree

/-- A check-in request for a booking that is not funded yet fails, and its challenge is spent. -/
theorem spent_and_refused :
    Alone (sampleMoments .pendingFunding .pendingFunding) (sampleDb .pendingFunding none) ∧
    (respond hashingRuntime (sampleMoments .pendingFunding .pendingFunding)
        "3b241101-e2bb-4255-8caf-4136c566a962" "renter"
        (CheckIn.token hashingRuntime samplePayload)).result = .error "Booking must be funded" ∧
    (respond hashingRuntime (sampleMoments .pendingFunding .pendingFunding)
        "3b241101-e2bb-4255-8caf-4136c566a962" "renter"
        (CheckIn.token hashingRuntime samplePayload)).spent =
          some "6c86c6aac5fb24bcf5d9939cb7d7d5645ce39418f449e03b262dd4fa14b4b92b" ∧
    ¬ AllOrNothing hashingRuntime (sampleMoments .pendingFunding .pendingFunding)
        "3b241101-e2bb-4255-8caf-4136c566a962" "renter" (CheckIn.token hashingRuntime samplePayload) := by
  have hredeemable := redeemable_sample .pendingFunding .pendingFunding
  have hhash : hashNonce hashingRuntime samplePayload.nonce =
      "6c86c6aac5fb24bcf5d9939cb7d7d5645ce39418f449e03b262dd4fa14b4b92b" := by
    simp only [hashNonce, hashingRuntime, if_true]
  have hcheckIn : checkIn hashingRuntime (sampleMoments .pendingFunding .pendingFunding)
      "3b241101-e2bb-4255-8caf-4136c566a962" "renter" (hashingRuntime.sha256 samplePayload.nonce) =
        (.error "Booking must be funded", none) := rfl
  have hrespond : respond hashingRuntime (sampleMoments .pendingFunding .pendingFunding)
      "3b241101-e2bb-4255-8caf-4136c566a962" "renter" (CheckIn.token hashingRuntime samplePayload) =
        ⟨.error "Booking must be funded",
          some "6c86c6aac5fb24bcf5d9939cb7d7d5645ce39418f449e03b262dd4fa14b4b92b", none⟩ := by
    simp only [respond, hredeemable.valid, (consume_eq_ok hredeemable.valid).mpr hredeemable,
      hcheckIn, hhash, not_true_eq_false, if_false]
  refine ⟨⟨⟨rfl, rfl⟩, ⟨rfl, rfl⟩, ⟨rfl, rfl⟩, ⟨rfl, rfl⟩, rfl, rfl, fun id row h => ⟨row, h⟩⟩,
    by rw [hrespond], by rw [hrespond], ?_⟩
  rw [allOrNothing_iff_of_redeemable digest_hashingRuntime hredeemable]
  intro h
  obtain ⟨row, ⟨key, hid, hrow⟩, hstatus, -⟩ := h.read.2
  cases hid
  cases hrow
  cases hstatus

end Sample

end PovDeposit.Api.CheckInRequest
