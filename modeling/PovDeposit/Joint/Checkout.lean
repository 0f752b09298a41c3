/-
  A booking attempt from the form (apps/web/components/booking-form.tsx and `invokeEscrow` in
  apps/web/lib/contract.ts), and what it leaves behind when it fails.

  The form posts the booking to the API, then has the wallet sign `create_booking` and
  `fund_booking`. The API stores the booking with the first step and hears of the others only
  when they have succeeded, so nothing takes the booking back when one of them fails.
  `attempt_frees_slot_iff` says what that means for the slot: it can be booked again after a
  failed attempt only if the API never accepted the request.

  What the wallet, Horizon and the RPC server answer is part of the attempt.
-/
import PovDeposit.Api.Properties
import PovDeposit.Joint.BookingForm

namespace PovDeposit.Joint

open PovDeposit.Lib
open PovDeposit.Api PovDeposit.Api.Properties

/-! ## invokeEscrow -/

inductive TransactionStatus where
  | success
  | failed
  | notFound
  deriving DecidableEq, Repr

/-- The answers `invokeEscrow` gets. -/
structure Responses where
  /-- why `loadAccount` fails -/
  accountError : Option String
  simulationError : Option String
  /-- why there is no signed transaction -/
  signatureError : Option String
  /-- `sendTransaction` answers `ERROR` -/
  rejected : Bool
  hash : String
  /-- what `getTransaction` answers, time after time -/
  statuses : List TransactionStatus
  deriving DecidableEq, Repr

/-- The loop that waits for the transaction. -/
def awaitTransaction (hash : String) : Nat → List TransactionStatus → Except String String
  | 0, _ => .error "Soroban confirmation timed out."
  | _ + 1, .success :: _ => .ok hash
  | _ + 1, .failed :: _ => .error "Soroban transaction failed."
  | n + 1, .notFound :: rest => awaitTransaction hash n rest
  | n + 1, [] => awaitTransaction hash n []

def invokeEscrow (answers : Responses) : Except String String :=
  match answers.accountError, answers.simulationError, answers.signatureError with
  | some e, _, _ => .error e
  | none, some e, _ => .error e
  | none, none, some e => .error e
  | none, none, none =>
    if answers.rejected then .error "Soroban transaction was rejected."
    else awaitTransaction answers.hash 30 answers.statuses

/-! ## The attempt -/

structure Attempt where
  /-- why the form does not post: no such slot any more, no wallet, another wallet -/
  blocked : Option String
  body : CreateInput
  /-- the API's clock and its `randomUUID` -/
  now : Int
  uuid : String
  /-- `/api/stellar-config` has a contract -/
  configured : Bool
  created : Responses
  funded : Responses
  deriving DecidableEq, Repr

/-- What the form gets for the attempt's request. `POST /api/bookings` answers every refusal
    with a `BadRequestException`, and the form shows the `error` of its body. -/
def Attempt.post (R : Runtime) (network : String) (db : Db) (a : Attempt) :
    Except String (Db × Workflow.Booking) :=
  match a.blocked with
  | some e => .error e
  | none =>
    match a.body.parse R with
    | none => .error "Bad Request"
    | some input => (Workflow.create R network db a.now a.uuid input).mapError fun _ => "Bad Request"

/-- The form's mutation up to `fund_booking`: the database after it, and the hash of the
    funding transaction. -/
def submit (R : Runtime) (sdk : Sdk) (network : String) (db : Db) (a : Attempt) :
    Db × Except String String :=
  match a.post R network db with
  | .error e => (db, .error e)
  | .ok (db, booking) =>
    if ¬ a.configured then (db, .error "Escrow contract is not configured.")
    else match formCall R sdk a.body booking.onChainBookingId with
      | none => (db, .error "Invalid contract argument")
      | some _ =>
        match invokeEscrow a.created with
        | .error e => (db, .error e)
        | .ok _ => (db, invokeEscrow a.funded)

/-- The API would store this booking if the slot were free: the form posts it, it passes the
    schema and the checks on its own terms, and its ids are not in use. -/
structure Acceptable (R : Runtime) (db : Db) (a : Attempt) (input : Workflow.CreateBooking) : Prop
    where
  posted : a.blocked = none
  parsed : a.body.parse R = some input
  parties : input.renter ≠ input.host
  text : R.storable input.renter = true
  positive : 0 < input.depositAmount
  bounded : input.depositAmount ≤ 100000000000
  id : db.bookings.lookup a.uuid = none
  onChain : ∃ c, onChainBookingId a.uuid = some c ∧ ∀ r ∈ db.rows, r.onChainBookingId ≠ c

/-- Some later request for property `p` at the start of slot `s` is accepted before then. -/
def Rebookable (R : Runtime) (network : String) (σ : Workflow.State) (now : Int) (p : Property)
    (s : ViewingSlot) : Prop :=
  ∃ as σ' later uuid input r, (Workflow.machine R network).exec σ as = some σ' ∧
    now ≤ later ∧ later < s.startsAt ∧ input.listingId = p.slug ∧
    R.date input.visitTime = some s.startsAt ∧
    Workflow.create R network σ'.db later uuid input = .ok r

/-! ## What it leaves behind -/

section

variable {R : Runtime} {sdk : Sdk} {network : String} {db : Db} {a : Attempt}

/-- The database after the attempt is the one after its request. -/
theorem submit_db : (submit R sdk network db a).1 =
    match a.post R network db with
    | .ok r => r.1
    | .error _ => db := by
  unfold submit
  cases a.post R network db with
  | error e => rfl
  | ok r =>
    dsimp only
    split
    · rfl
    · split
      · rfl
      · split <;> rfl

theorem post_eq_ok {r : Db × Workflow.Booking} : a.post R network db = .ok r ↔
    a.blocked = none ∧ ∃ input, a.body.parse R = some input ∧
      Workflow.create R network db a.now a.uuid input = .ok r := by
  unfold Attempt.post
  cases a.blocked with
  | some e => simp
  | none =>
    cases a.body.parse R with
    | none => simp
    | some input =>
      cases h : Workflow.create R network db a.now a.uuid input <;> simp [Except.mapError, h]

/-- What the schema lets through is what was posted. -/
theorem parse_eq_some {body : CreateInput} {input : Workflow.CreateBooking}
    (h : body.parse R = some input) :
    input.listingId = body.listingId ∧ input.host = body.host ∧
      input.visitTime = body.visitTime ∧ isHash input.evidenceHash = true := by
  unfold CreateInput.parse at h
  simp only [Option.ite_none_right_eq_some, Bool.and_eq_true, Option.some.injEq] at h
  obtain ⟨⟨-, hhash⟩, rfl⟩ := h
  exact ⟨rfl, rfl, rfl, hhash⟩

/-- A request that was stored was acceptable. -/
theorem acceptable_of_post {r : Db × Workflow.Booking} (h : a.post R network db = .ok r) :
    ∃ input, Acceptable R db a input := by
  obtain ⟨hposted, input, hparsed, hcreate⟩ := post_eq_ok.mp h
  obtain ⟨onChain, visitTime, honChain, hvalid, htransaction⟩ := create_eq_ok.mp hcreate
  obtain ⟨p, s, -, htext, hunused, -⟩ := createTransaction_eq_ok.mp htransaction
  exact ⟨input,
    { posted := hposted
      parsed := hparsed
      parties := hvalid.parties
      text := htext
      positive := hvalid.positive
      bounded := hvalid.bounded
      id := hunused.id
      onChain := ⟨onChain, honChain, fun x hx => (hunused.others x hx).1⟩ }⟩

variable (hu : Unique db) {p : Property} (hp : p ∈ db.properties) {s : ViewingSlot}
  (hs : s ∈ db.slots) (hsp : s.propertyId = p.id)
  (hdate : R.date (IsoDate.toISOString s.startsAt) = some s.startsAt)
include hu hp hs hsp hdate

/-- An acceptable request for a free slot is stored, and takes the slot. -/
theorem post_of_acceptable (hlisting : a.body.listingId = p.slug) (hhost : a.body.host = p.host)
    (htime : a.body.visitTime = IsoDate.toISOString s.startsAt) (hactive : p.active = true)
    (hfree : isFree db a.now s = true) {input : Workflow.CreateBooking}
    (h : Acceptable R db a input) : ∃ r, a.post R network db = .ok r ∧ Taken r.1 s := by
  obtain ⟨hlist, hhost', htime', hhash⟩ := parse_eq_some h.parsed
  obtain ⟨onChain, honChain, hids⟩ := h.onChain
  have hrenter : input.renter ≠ p.host := by
    rw [← hhost, ← hhost']
    exact h.parties
  have hasks : Asks R input p s :=
    { listing := hlist.trans hlisting
      host := hhost'.trans hhost
      visitTime := htime'.trans htime
      date := hdate
      renter := hrenter
      text := h.text
      positive := h.positive
      bounded := h.bounded
      hash := hhash }
  obtain ⟨r, row, hcreate, hrow, -, hslot, -⟩ :=
    (books_iff hu hp hs hsp hasks honChain h.id hids).mpr ⟨hactive, hfree⟩
  exact ⟨r, post_eq_ok.mpr ⟨h.posted, input, h.parsed, hcreate⟩, row,
    mem_rows.mpr ⟨a.uuid, hrow⟩, hslot⟩

/-- A free slot of an active property can be booked, by someone other than its host and under
    fresh ids. -/
theorem rebookable_of_free {calls : List Workflow.Process} {now : Int} (hactive : p.active = true)
    (hfree : isFree db now s = true)
    (hfresh : ∃ uuid c, onChainBookingId uuid = some c ∧ db.bookings.lookup uuid = none ∧
      ∀ r ∈ db.rows, r.onChainBookingId ≠ c) :
    Rebookable R network ⟨db, calls⟩ now p s := by
  obtain ⟨uuid, c, hc, hid, hids⟩ := hfresh
  obtain ⟨renter, hrenter, htext⟩ :
      ∃ renter : String, renter ≠ p.host ∧ R.storable renter = true := by
    by_cases h : "renter" = p.host
    · exact ⟨"another renter", by rw [← h]; decide, R.storable_of _ (by simp)⟩
    · exact ⟨"renter", h, R.storable_of _ (by simp)⟩
  let evidenceHash := "6c86c6aac5fb24bcf5d9939cb7d7d5645ce39418f449e03b262dd4fa14b4b92b"
  have hhash : isHash evidenceHash = true := by decide
  let input : Workflow.CreateBooking :=
    ⟨p.slug, renter, p.host, 1, IsoDate.toISOString s.startsAt, evidenceHash⟩
  have hasks : Asks R input p s :=
    { listing := rfl
      host := rfl
      visitTime := rfl
      date := hdate
      renter := hrenter
      text := htext
      positive := Int.one_pos
      bounded := by show (1 : Int) ≤ 100000000000; decide
      hash := hhash }
  obtain ⟨r, -, hcreate, -⟩ := (books_iff hu hp hs hsp hasks hc hid hids).mpr ⟨hactive, hfree⟩
  exact ⟨[], _, now, uuid, input, r, rfl, Int.le_refl _, (isFree_iff.mp hfree).1, rfl, hdate,
    hcreate⟩

omit hdate in
/-- A slot that can still be booked is free, and its property active. -/
theorem free_of_rebookable {calls : List Workflow.Process} {now : Int}
    (h : Rebookable R network ⟨db, calls⟩ now p s) :
    p.active = true ∧ isFree db now s = true := by
  obtain ⟨as, σ', later, uuid, input, r, hrun, hnow, hlater, hlisting, hstart, hcreate⟩ := h
  have hstays : Stays db σ'.db := stays_exec hrun
  have hp' : p ∈ σ'.db.properties := by rw [hstays.properties]; exact hp
  have hs' : s ∈ σ'.db.slots := by rw [hstays.slots]; exact hs
  obtain ⟨hactive, hfree, -⟩ :=
    create_selects (hu.stays hstays) hp' hs' hsp hlisting hstart hcreate
  refine ⟨hactive, isFree_iff.mpr ⟨by omega, fun htaken => ?_⟩⟩
  exact (isFree_iff.mp hfree).2 (hstays.taken htaken)

end

/-- **When a failed attempt leaves the slot bookable.** Let the form post a request for slot
    `s` of property `p`, and let the attempt fail at any step up to and with `fund_booking`.
    Some later request for the same property and time is accepted exactly if the property is
    active, the slot was free, and the request itself was not acceptable. -/
theorem attempt_frees_slot_iff (R : Runtime) (sdk : Sdk) (network : String)
    (σ : Workflow.State) (hu : Unique σ.db) (p : Property) (hp : p ∈ σ.db.properties)
    (s : ViewingSlot) (hs : s ∈ σ.db.slots) (hsp : s.propertyId = p.id)
    (hdate : R.date (IsoDate.toISOString s.startsAt) = some s.startsAt) (a : Attempt)
    (hlisting : a.body.listingId = p.slug) (hhost : a.body.host = p.host)
    (htime : a.body.visitTime = IsoDate.toISOString s.startsAt)
    (hfresh : ∃ uuid c, onChainBookingId uuid = some c ∧ σ.db.bookings.lookup uuid = none ∧
      ∀ r ∈ σ.db.rows, r.onChainBookingId ≠ c)
    (db : Db) (error : String) (hfails : submit R sdk network σ.db a = (db, .error error)) :
    Rebookable R network { σ with db := db } a.now p s ↔
      p.active = true ∧ isFree σ.db a.now s = true ∧ ¬ ∃ input, Acceptable R σ.db a input := by
  have hdb : (submit R sdk network σ.db a).1 = match a.post R network σ.db with
      | .ok r => r.1
      | .error _ => σ.db := submit_db
  rw [hfails] at hdb
  obtain rfl := hdb
  cases hpost : a.post R network σ.db with
  | ok r =>
    -- stored: the slot is taken, and stays so
    have hacceptable := acceptable_of_post hpost
    obtain ⟨-, input, hparsed, hcreate⟩ := post_eq_ok.mp hpost
    obtain ⟨hlist, -, htime', -⟩ := parse_eq_some hparsed
    have hstart : R.date input.visitTime = some s.startsAt := by rw [htime', htime, hdate]
    obtain ⟨-, -, htaken⟩ := create_selects hu hp hs hsp (hlist.trans hlisting) hstart hcreate
    have hstays := stays_create hcreate
    have hp' : p ∈ r.1.properties := by rw [hstays.properties]; exact hp
    have hs' : s ∈ r.1.slots := by rw [hstays.slots]; exact hs
    constructor
    · intro hbook
      have hfree := (free_of_rebookable (hu.stays hstays) hp' hs' hsp hbook).2
      exact absurd htaken (isFree_iff.mp hfree).2
    · rintro ⟨-, -, hnot⟩
      exact absurd hacceptable hnot
  | error e =>
    -- refused: nothing has changed
    constructor
    · intro hbook
      obtain ⟨hactive, hfree⟩ := free_of_rebookable hu hp hs hsp hbook
      refine ⟨hactive, hfree, fun ⟨input, hacceptable⟩ => ?_⟩
      obtain ⟨r, hr, -⟩ : ∃ r, a.post R network σ.db = .ok r ∧ Taken r.1 s :=
        post_of_acceptable hu hp hs hsp hdate hlisting hhost htime hactive hfree hacceptable
      rw [hpost] at hr
      cases hr
    · rintro ⟨hactive, hfree, -⟩
      exact rebookable_of_free hu hp hs hsp hdate hactive hfree hfresh

section Sample

open Workflow (sampleRuntime)

/-- The sample request, with a deposit of one XLM. -/
def sampleAttempt (renter : String) (created : Responses) : Attempt where
  blocked := none
  body := { sampleBody "10000000" with renter := renter }
  now := 1892808000000
  uuid := "3b241101-e2bb-4255-8caf-4136c566a962"
  configured := true
  created := created
  funded := created

/-- The renter declines to sign. -/
def declined : Responses where
  accountError := none
  simulationError := none
  signatureError := some "Wallet signature was rejected."
  rejected := false
  hash := ""
  statuses := []

theorem unique_sampleListing : Unique sampleListing := by
  constructor <;> simp [sampleListing, Workflow.listed]

/-- A request of the host for the own slot is refused, and the slot stays bookable. -/
theorem attempt_frees_slot_iff_refused :
    Rebookable sampleRuntime "TESTNET" ⟨sampleListing, []⟩ 1892808000000
      ⟨"property", "loft", sampleHost, true⟩ ⟨"slot", "property", 1893492000000⟩ := by
  refine (attempt_frees_slot_iff sampleRuntime sampleSdk "TESTNET" ⟨sampleListing, []⟩
    unique_sampleListing _ List.mem_cons_self _ List.mem_cons_self rfl (by decide)
    (sampleAttempt sampleHost declined) rfl rfl (by decide) ?_ sampleListing
    "Bad Request" rfl).mpr ⟨rfl, by decide, ?_⟩
  · exact ⟨"3b241101-e2bb-4255-8caf-4136c566a962", _, rfl, rfl, fun r hr => nomatch hr⟩
  · rintro ⟨input, h⟩
    have hparsed := h.parsed
    cases hparsed
    exact h.parties rfl

/-- The renter declines to sign `create_booking`, and nobody can book the slot any more. -/
theorem declined_attempt_takes_slot :
    ∃ db, submit sampleRuntime sampleSdk "TESTNET" sampleListing
        (sampleAttempt sampleRenter declined) = (db, .error "Wallet signature was rejected.") ∧
      ¬ Rebookable sampleRuntime "TESTNET" ⟨db, []⟩ 1892808000000
        ⟨"property", "loft", sampleHost, true⟩ ⟨"slot", "property", 1893492000000⟩ := by
  refine ⟨_, rfl, fun hbook => ?_⟩
  have hu : Unique (submit sampleRuntime sampleSdk "TESTNET"
      sampleListing (sampleAttempt sampleRenter declined)).1 := by
    obtain ⟨hid, hslug, hslot, htime⟩ := unique_sampleListing
    exact ⟨hid, hslug, hslot, htime⟩
  obtain ⟨-, hfree⟩ := free_of_rebookable hu List.mem_cons_self List.mem_cons_self rfl hbook
  exact absurd hfree (by decide)

end Sample

end PovDeposit.Joint
