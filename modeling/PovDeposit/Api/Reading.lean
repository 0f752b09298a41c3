/-
  What the API answers about a booking, and how its answers age
  (apps/api/src/booking/booking.controller.ts: `requireBooking`, `serialize` and the routes
  `create`, `get` and `activity`).

  `Later` compares two answers about one booking: the terms are the same, the state is further
  on the lifecycle, and a hash that was shown is shown still. In a run every answer is later
  than those before it, whether it is one of `get` or one that a call of the workflow
  returned (`answers_age`). Which hashes an answer shows goes by its state (`Formed`), so two
  answers with one state are the same.

  A path may spell the id of a booking in any way. A text that is no UUID fails the query with
  an error that does not say "not found", so it is answered with 500.

  As in the workflow an instant stands for its ISO string; the timestamps of the row are left
  out.
-/
import PovDeposit.Api.Memory
import PovDeposit.Api.Properties
import PovDeposit.Api.Requests
import PovDeposit.Lib.Regex

namespace PovDeposit.Api

open PovDeposit.Lib PovDeposit.Lib.Outcome
open PovDeposit.Contract (Address)

/-- How Nest answers a handler that throws: by the status of its own exceptions, and by 500
    for any other. -/
inductive HttpError where
  | badRequest (message : String)
  | notFound (message : String)
  | internal
  deriving DecidableEq, Repr

/-- What `serialize` returns: the booking with its deposit as text, and the network. -/
structure BookingResponse where
  id : String
  onChainBookingId : String
  listingId : String
  renter : Address
  host : Address
  depositAmount : String
  visitTime : Int
  evidenceHash : String
  state : BookingStatus
  checkInProofHash : Option String
  fundingTransactionHash : Option String
  settlementTransactionHash : Option String
  network : String
  deriving DecidableEq, Repr

namespace BookingController

/-- `/not found/i.test(message)` -/
def namesNotFound (message : String) : Bool := Regex.contains "not found".toList message.toList

def requireBooking (R : Runtime) (db : Db) (id : String) : Except HttpError Workflow.Booking :=
  match Workflow.get R db id with
  | .ok booking => .ok booking
  | .error message => .error (if namesNotFound message then .notFound message else .internal)

def serialize (network : String) (booking : Workflow.Booking) : BookingResponse where
  id := booking.id
  onChainBookingId := booking.onChainBookingId
  listingId := booking.listingId
  renter := booking.renter
  host := booking.host
  depositAmount := toString booking.depositAmount
  visitTime := booking.visitTime
  evidenceHash := booking.evidenceHash
  state := booking.state
  checkInProofHash := booking.checkInProofHash
  fundingTransactionHash := booking.fundingTransactionHash
  settlementTransactionHash := booking.settlementTransactionHash
  network := network

/-- `create`, with the database it leaves. -/
def create (R : Runtime) (network : String) (db : Db) (now : Int) (uuid : String)
    (body : CreateInput) : Except HttpError (Db × BookingResponse) :=
  match body.parse R with
  | none => .error (.badRequest "Invalid booking request")
  | some input =>
    match Workflow.create R network db now uuid input with
    | .ok (db, booking) => .ok (db, serialize network booking)
    | .error message => .error (.badRequest message)

def get (R : Runtime) (network : String) (db : Db) (id : String) : Except HttpError BookingResponse :=
  (requireBooking R db id).map (serialize network)

/-- The rows that `activity` selects, of `stored`: those with a payment, 50 at most. -/
def recent (db : Db) (stored : List BookingRow) : List BookingRow :=
  (stored.filter fun row => db.payments.any fun t => t.bookingId = row.id).take 50

/-- `activity`, where the database goes through its rows in the order `stored`. -/
def activity (network : String) (db : Db) (stored : List BookingRow) : List BookingResponse :=
  (recent db stored).map fun row => serialize network (Workflow.load db row)

theorem get_eq_ok {R : Runtime} {network : String} {db : Db} {id : String} {r : BookingResponse} :
    get R network db id = .ok r ↔ ∃ row, db.Names R id row ∧
      serialize network (Workflow.load db row) = r := by
  have hbooking : ∀ b, requireBooking R db id = .ok b ↔ Workflow.get R db id = .ok b := by
    intro b
    unfold requireBooking
    cases Workflow.get R db id <;> simp
  unfold get
  simp only [map_eq_ok, hbooking, Workflow.get_eq_ok]
  constructor
  · rintro ⟨b, ⟨row, hrow, rfl⟩, hr⟩
    exact ⟨row, hrow, hr⟩
  · rintro ⟨row, hrow, hr⟩
    exact ⟨_, ⟨row, hrow, rfl⟩, hr⟩

/-- It fails for a text that is no UUID, and for one that names no booking. -/
theorem get_eq_error {R : Runtime} {network : String} {db : Db} {text : String} {e : HttpError} :
    get R network db text = .error e ↔ R.uuid text = none ∧ e = .internal ∨
      ∃ id, R.uuid text = some id ∧ db.bookings.lookup id = none ∧
        e = .notFound "Booking not found" := by
  have hrequire : ∀ message, Workflow.get R db text = .error message →
      (get R network db text = .error e ↔
        e = if namesNotFound message then .notFound message else .internal) := by
    intro message hmessage
    unfold get requireBooking
    rw [map_eq_error, hmessage]
    exact ⟨fun h => (Except.error.inj h).symm, fun h => congrArg Except.error h.symm⟩
  cases huuid : R.uuid text with
  | none =>
    have hget : Workflow.get R db text = .error "Inconsistent column data: Error creating UUID" := by
      simp only [Workflow.get, Runtime.readUuid, huuid]
      rfl
    have hname : namesNotFound "Inconsistent column data: Error creating UUID" = false := by decide
    rw [hrequire _ hget, hname]
    simp
  | some id =>
    cases hrow : db.bookings.lookup id with
    | none =>
      have hget : Workflow.get R db text = .error "Booking not found" := by
        simp only [Workflow.get, Runtime.readUuid, huuid]
        show Workflow.findUnique db id = _
        rw [Workflow.findUnique, hrow]
      have hname : namesNotFound "Booking not found" = true := by decide
      rw [hrequire _ hget, hname]
      simp [hrow]
    | some row =>
      have hok : get R network db text = .ok (serialize network (Workflow.load db row)) :=
        get_eq_ok.mpr ⟨row, ⟨id, huuid, hrow⟩, rfl⟩
      simp [hok, hrow]

theorem create_eq_ok {R : Runtime} {network : String} {db db' : Db} {now : Int} {uuid : String}
    {body : CreateInput} {r : BookingResponse} :
    create R network db now uuid body = .ok (db', r) ↔ ∃ input b, body.parse R = some input ∧
      Workflow.create R network db now uuid input = .ok (db', b) ∧ serialize network b = r := by
  unfold create
  cases body.parse R with
  | none => simp
  | some input =>
    simp only [Option.some.injEq, exists_and_left, exists_eq_left']
    cases Workflow.create R network db now uuid input with
    | error message => simp
    | ok x => simp [Prod.ext_iff, and_assoc]

end BookingController

/-! ## Answers about one booking -/

/-- The answer as it was when the booking was created. -/
def BookingResponse.atCreation (r : BookingResponse) : BookingResponse :=
  { r with
    state := .pendingFunding
    checkInProofHash := none
    fundingTransactionHash := none
    settlementTransactionHash := none }

/-- `r'` is about the same booking as `r`, and not older. -/
structure BookingResponse.Later (r r' : BookingResponse) : Prop where
  terms : r'.atCreation = r.atCreation
  state : path r.state <+: path r'.state
  proof : ∀ hash ∈ r.checkInProofHash, hash ∈ r'.checkInProofHash
  funding : ∀ hash ∈ r.fundingTransactionHash, hash ∈ r'.fundingTransactionHash
  settlement : ∀ hash ∈ r.settlementTransactionHash, hash ∈ r'.settlementTransactionHash

/-- The state is one of the lifecycle, and the hashes shown are those it stands for. -/
structure BookingResponse.Formed (r : BookingResponse) : Prop where
  state : r.state ∈ lifecycle
  proof : r.checkInProofHash.isSome = true ↔ r.state = .checkedIn ∨ r.state = .completed
  funding : r.fundingTransactionHash.isSome = true ↔ r.state ≠ .pendingFunding
  settlement : r.settlementTransactionHash.isSome = true ↔ r.state = .refunded

theorem later_refl (r : BookingResponse) : r.Later r :=
  ⟨rfl, List.prefix_rfl, fun _ h => h, fun _ h => h, fun _ h => h⟩

theorem BookingResponse.Later.trans {r₁ r₂ r₃ : BookingResponse} (h : r₁.Later r₂) (h' : r₂.Later r₃) :
    r₁.Later r₃ :=
  ⟨h'.terms.trans h.terms, h.state.trans h'.state, fun x hx => h'.proof x (h.proof x hx),
    fun x hx => h'.funding x (h.funding x hx), fun x hx => h'.settlement x (h.settlement x hx)⟩

/-- A hash that is kept, and is there before if it is there after, has not changed. -/
theorem eq_of_kept {o o' : Option String} (hkept : ∀ x ∈ o, x ∈ o')
    (hsome : o'.isSome = true ↔ o.isSome = true) : o' = o := by
  cases ho : o with
  | some x => exact hkept x ho
  | none =>
    have hnone : ¬ o'.isSome = true := by simp [hsome, ho]
    simpa using hnone

/-- Two answers with one state are the same. -/
theorem BookingResponse.Later.eq_of_state {r r' : BookingResponse} (h : r.Later r') (hr : r.Formed)
    (hr' : r'.Formed) (hstate : r'.state = r.state) : r' = r := by
  have hproof : r'.checkInProofHash = r.checkInProofHash :=
    eq_of_kept h.proof (by rw [hr'.proof, hr.proof, hstate])
  have hfunding : r'.fundingTransactionHash = r.fundingTransactionHash :=
    eq_of_kept h.funding (by rw [hr'.funding, hr.funding, hstate])
  have hsettlement : r'.settlementTransactionHash = r.settlementTransactionHash :=
    eq_of_kept h.settlement (by rw [hr'.settlement, hr.settlement, hstate])
  have hrest := h.terms
  cases r
  cases r'
  simp only [BookingResponse.atCreation, BookingResponse.mk.injEq] at *
  simp only [hrest, hproof, hfunding, hsettlement, hstate, and_self]

/-! ## The answers of a run -/

/-- The booking that `create` answers is the row that it stored. -/
theorem Workflow.stored_of_create {R : Runtime} {network : String} {db db' : Db} {now : Int}
    {uuid : String} {input : CreateBooking} {b : Booking}
    (h : create R network db now uuid input = .ok (db', b)) :
    ∃ row, db'.bookings.lookup uuid = some row ∧ load db' row = b := by
  obtain ⟨onChain, visitTime, -, -, htransaction⟩ := Properties.create_eq_ok.mp h
  obtain ⟨p, slot, -, -, -, hbooked⟩ := Properties.createTransaction_eq_ok.mp htransaction
  cases hbooked
  exact ⟨_, AList.lookup_insert _, rfl⟩

/-- A payment that is found among some is found when more come after them. -/
theorem find?_prefix {ts us : List PaymentTransaction} (h : ts <+: us)
    {f : PaymentTransaction → Bool} {hash : String} (hhash : hash ∈ (ts.find? f).map (·.hash)) :
    hash ∈ (us.find? f).map (·.hash) := by
  obtain ⟨vs, rfl⟩ := h
  obtain ⟨t, ht, hname⟩ := Option.map_eq_some_iff.mp hhash
  rw [List.find?_append, ht]
  exact congrArg some hname

/-- Among the payments of a booking there is one of some kind if there is one due. -/
theorem shown_iff {amount : Int} {kinds : List TransactionKind} {ts : List PaymentTransaction}
    (h : Over amount kinds ts) (f : TransactionKind → Bool) :
    ((ts.find? fun t => f t.kind).map (·.hash)).isSome = true ↔ ∃ k ∈ kinds, f k = true := by
  rw [Option.isSome_map, List.find?_isSome]
  constructor
  · rintro ⟨t, ht, hkind⟩
    exact ⟨t.kind, h.kind_mem ht, hkind⟩
  · rintro ⟨k, hk, hkind⟩
    obtain ⟨t, ht, rfl⟩ := h.exists_kind hk
    exact ⟨t, ht, hkind⟩

namespace Workflow

open BookingController (serialize)

/-- The booking that a call holds or has returned. -/
def Stage.reading : Stage → Option Booking
  | .checked b | .updated b | .paid b | .logged b | .returned b => some b
  | _ => none

/-- Booking `id` is stored, and what is answered about it is later than `b`. -/
def Past (network : String) (db : Db) (id : String) (b : Booking) : Prop :=
  ∃ row, db.bookings.lookup id = some row ∧
    (serialize network b).Later (serialize network (load db row))

structure Recalled (network : String) (s : State) : Prop where
  paid : Paid s
  proofs : ∀ id row, s.db.bookings.lookup id = some row →
    (row.checkInProofHash.isSome = true ↔ row.status = .checkedIn ∨ row.status = .completed)
  readings : ∀ i p b, s.call? i = some p → p.stage.reading = some b →
    Past network s.db p.op.id b ∧ (p.stage = .returned b → p.op.target ∈ path b.state)

theorem recalled_of_fresh {network : String} {s : State} (h : Fresh s) : Recalled network s := by
  refine ⟨paid_of_fresh h, fun id row hrow => ?_, fun i p b hp => ?_⟩
  · rw [h.bookings, AList.lookup_empty] at hrow
    cases hrow
  · rw [State.call?, h.calls] at hp
    cases hp

section Step

variable {R : Runtime} {network : String} {s s' : State} {a : Action}

/-- What a call returns is what its last statement finds. -/
theorem returned_step {i : Nat} {p : Process} {b : Booking} (hstep : step R network s a = some s')
    (hp : s.call? i = some p) (hwritten : p.stage = .written) (hmover : a.mover = some i)
    (hs' : s' = s.move i { p with stage := .returned b }) :
    findUnique s.db p.op.id = .ok b := by
  have hnew : s'.call? i = some { p with stage := .returned b } := hs' ▸ call?_move_self hp
  -- the stage of the call after the step
  have hstage : ∀ stage, some (s.move i { p with stage := stage }) = some s' →
      stage = .returned b := by
    intro stage hmove
    cases hmove
    rw [call?_move_self hp, Option.some.injEq] at hnew
    exact congrArg Process.stage hnew
  cases a with
  | advance j =>
    obtain rfl : j = i := Option.some.inj hmover
    simp only [step, hp, Option.bind_some, advance, hwritten] at hstep
    split at hstep
    · cases hstage _ hstep
    · rename_i b' hget
      cases hstage _ hstep
      exact hget
  | fail j error =>
    obtain rfl : j = i := Option.some.inj hmover
    simp only [step, hp, Option.bind_some, Option.ite_none_right_eq_some] at hstep
    cases hstage _ hstep.2
  | stop j =>
    obtain rfl : j = i := Option.some.inj hmover
    simp only [step, hp, Option.bind_some, Option.ite_none_right_eq_some] at hstep
    cases hstage _ hstep.2
  | _ => cases hmover

variable (h : Recalled network s)
include h

/-- A check-in brings the proof, and no other write touches it. -/
theorem Recalled.proof_apply {c : Call} {id : String} {row : BookingRow}
    (hrow : s.db.bookings.lookup id = some row) (hadmits : c.op.admits row = true) :
    (∀ hash ∈ row.checkInProofHash, hash ∈ (c.op.apply row).checkInProofHash) ∧
    ((c.op.apply row).checkInProofHash.isSome = true ↔
      (c.op.apply row).status = .checkedIn ∨ (c.op.apply row).status = .completed) := by
  have hsource : row.status = c.op.source := (admits_iff.mp hadmits).1
  have hproof := h.proofs id row hrow
  rw [hsource] at hproof
  cases hc : c <;>
    simp [hc, Call.op, fund, checkIn, refund, confirm, Operation.apply] at hproof ⊢ <;>
    simp [hproof]

theorem Recalled.proofs_step (hstep : step R network s a = some s') {id : String}
    {row' : BookingRow} (hrow' : s'.db.bookings.lookup id = some row') :
    row'.checkInProofHash.isSome = true ↔ row'.status = .checkedIn ∨ row'.status = .completed := by
  cases hrow : s.db.bookings.lookup id with
  | none =>
    obtain ⟨now, uuid, input, -, hcreated⟩ := row_origin h.paid.coherent hstep hrow hrow'
    simp [hcreated.proof, hcreated.status]
  | some row =>
    obtain ⟨x, hx, hcases⟩ := row_step h.paid.coherent hstep hrow
    obtain rfl : row' = x := Option.some.inj (hrow'.symm.trans hx)
    rcases hcases with rfl | ⟨i, p, -, -, -, hadmits, rfl⟩
    · exact h.proofs id row' hrow
    · exact (h.proof_apply hrow hadmits).2

/-- The answer about a stored booking after a step is later than the one before. -/
theorem Recalled.later_step (hstep : step R network s a = some s') {id : String} {row : BookingRow}
    (hrow : s.db.bookings.lookup id = some row) : Past network s'.db id (load s.db row) := by
  have hproperties : s'.db.properties = s.db.properties :=
    (Properties.stays_step s a s' hstep).properties
  have hpayments : s.db.payments <+: s'.db.payments := by
    rcases payments_step hstep with hsame | ⟨i, p, b, kind, v, missing, -, -, hadd⟩
    · exact ⟨[], by rw [hsame, List.append_nil]⟩
    · exact ⟨_, hadd.symm⟩
  have hmine : ∀ x : String, (s.db.payments.filter fun t => t.bookingId = x) <+:
      s'.db.payments.filter fun t => t.bookingId = x := fun x => hpayments.filter _
  obtain ⟨row', hrow', hcases⟩ := row_step h.paid.coherent hstep hrow
  refine ⟨row', hrow', ?_⟩
  rcases hcases with rfl | ⟨i, p, -, -, -, hadmits, rfl⟩
  · refine ⟨?_, List.prefix_rfl, fun _ hx => hx, fun _ => find?_prefix (hmine _),
      fun _ => find?_prefix (hmine _)⟩
    unfold serialize load fromDatabase BookingResponse.atCreation
    rw [hproperties]
  · refine ⟨?_, ?_, (h.proof_apply hrow hadmits).1, fun _ => find?_prefix (hmine _),
      fun _ => find?_prefix (hmine _)⟩
    · unfold serialize load fromDatabase BookingResponse.atCreation Operation.apply
      rw [hproperties]
    · show path row.status <+: path p.op.target
      rw [path_target p.call, (admits_iff.mp hadmits).1]
      exact List.prefix_append _ _

theorem Recalled.past_step (hstep : step R network s a = some s') {id : String} {b : Booking}
    (hb : Past network s.db id b) : Past network s'.db id b := by
  obtain ⟨row, hrow, hlater⟩ := hb
  obtain ⟨row', hrow', hlater'⟩ := h.later_step hstep hrow
  exact ⟨row', hrow', hlater.trans hlater'⟩

/-- What a call reads is the answer of that moment. -/
theorem Recalled.quiet {i : Nat} {p : Process} {stage : Stage} (hp : s.call? i = some p)
    (hstep : step R network s a = some s') (hmover : a.mover = some i)
    (hs' : s' = s.move i { p with stage := stage }) (hquiet : Quiet s a i p stage) {b : Booking}
    (hb : stage.reading = some b) :
    Past network s.db p.op.id b ∧ (stage = .returned b → p.op.target ∈ path b.state) := by
  have hheld : ∀ b, p.stage.reading = some b → Past network s.db p.op.id b :=
    fun b hb => (h.readings i p b hp hb).1
  cases hquiet with
  | read b' row hstage hrow hload hcheck =>
    obtain rfl : b' = b := Option.some.inj hb
    rw [hload]
    exact ⟨⟨row, hrow, later_refl _⟩, fun hreturned => by cases hreturned⟩
  | opened b' row hstage =>
    obtain rfl : b' = b := Option.some.inj hb
    exact ⟨hheld b' (by rw [hstage]; rfl), fun hreturned => by cases hreturned⟩
  | paid b' hstage =>
    obtain rfl : b' = b := Option.some.inj hb
    exact ⟨hheld b' (by rw [hstage]; rfl), fun hreturned => by cases hreturned⟩
  | logged b' hstage =>
    obtain rfl : b' = b := Option.some.inj hb
    exact ⟨hheld b' (by rw [hstage]; rfl), fun hreturned => by cases hreturned⟩
  | returned b' hstage =>
    obtain rfl : b' = b := Option.some.inj hb
    obtain ⟨row, hrow, hload⟩ := findUnique_eq_ok.mp (returned_step hstep hp hstage hmover hs')
    have hdurable : p.durable = true :=
      h.paid.coherent.expected i p true hp (by simp [Process.expected, hstage])
    obtain ⟨x, hx, htarget⟩ := h.paid.coherent.moved i p hp hdurable
    obtain rfl : row = x := Option.some.inj (hrow.symm.trans hx)
    subst hload
    exact ⟨⟨row, hrow, later_refl _⟩, fun _ => htarget⟩
  | threw => cases hb
  | stopped => cases hb

end Step

theorem recalled_step {R : Runtime} {network : String} (s : State) (a : Action) (s' : State)
    (h : Recalled network s) (hstep : step R network s a = some s') : Recalled network s' := by
  refine ⟨paid_step s a s' h.paid hstep, fun id row => h.proofs_step hstep, ?_⟩
  have hold : ∀ j q b, s.call? j = some q → q.stage.reading = some b →
      Past network s'.db q.op.id b ∧ (q.stage = .returned b → q.op.target ∈ path b.state) :=
    fun j q b hq hb => ⟨h.past_step hstep (h.readings j q b hq hb).1, (h.readings j q b hq hb).2⟩
  intro j q b hq hb
  cases moves_of_step hstep with
  | rejected => exact hold j q b hq hb
  | create => exact hold j q b hq hb
  | others => exact hold j q b hq hb
  | call c =>
    rcases call?_of_append rfl hq with hq | rfl
    · exact hold j q b hq hb
    · rcases enter_cases R c with ⟨_, -, hstage⟩ | ⟨-, _, hstage⟩ <;> rw [hstage] at hb <;> cases hb
  | quiet _ i p stage hmover hp hquiet =>
    rcases call?_of_move hp rfl hq with ⟨rfl, rfl⟩ | ⟨-, hq⟩
    · have hnow := h.quiet hp hstep hmover rfl hquiet hb
      exact ⟨h.past_step hstep hnow.1, hnow.2⟩
    · exact hold j q b hq hb
  | update i p b' row hp hstage =>
    rcases call?_of_move hp rfl hq with ⟨rfl, rfl⟩ | ⟨-, hq⟩
    · obtain rfl : b' = b := Option.some.inj hb
      exact ⟨(hold j p b' hp (by rw [hstage]; rfl)).1, fun hreturned => by cases hreturned⟩
    · exact hold j q b hq hb
  | record i p b' hp =>
    rcases call?_of_move hp rfl hq with ⟨rfl, rfl⟩ | ⟨-, hq⟩
    · cases hb
    · exact hold j q b hq hb
  | commit i p b' kind v missing hp =>
    rcases call?_of_move hp rfl hq with ⟨rfl, rfl⟩ | ⟨-, hq⟩
    · cases hb
    · exact hold j q b hq hb

theorem recalled_of_exec {R : Runtime} {network : String} {s₀ s : State} {as : List Action}
    (h₀ : Fresh s₀) (hrun : (machine R network).exec s₀ as = some s) : Recalled network s :=
  (machine R network).exec_invariant recalled_step hrun (recalled_of_fresh h₀)

/-- The answers of a later state are later. -/
theorem Recalled.past_exec {R : Runtime} {network : String} {s t : State} {as : List Action}
    (h : Recalled network s) (hrun : (machine R network).exec s as = some t) {id : String}
    {b : Booking} (hb : Past network s.db id b) : Past network t.db id b :=
  ((machine R network).exec_invariant (I := fun u => Recalled network u ∧ Past network u.db id b)
    (fun u a u' hu hstep => ⟨recalled_step u a u' hu.1 hstep, hu.1.past_step hstep hu.2⟩) hrun
    ⟨h, hb⟩).2

/-- The payments that an answer shows are the dues of its state. -/
theorem Recalled.formed {network : String} {s : State} (h : Recalled network s) {id : String}
    {row : BookingRow} (hrow : s.db.bookings.lookup id = some row) :
    (serialize network (load s.db row)).Formed := by
  have hid : row.id = id := h.paid.coherent.keyed id row hrow
  have hdues := h.paid.dues id row hrow
  have hlifecycle := h.paid.coherent.lifecycle id row hrow
  rw [← hid] at hdues
  have hfunding := shown_iff hdues fun k => k = .fund
  have hsettlement := shown_iff hdues fun k => k ≠ .fund
  refine ⟨hlifecycle, h.proofs id row hrow, hfunding.trans ?_, hsettlement.trans ?_⟩
  · show _ ↔ row.status ≠ .pendingFunding
    generalize row.status = status at hlifecycle
    revert hlifecycle
    cases status <;> decide
  · show _ ↔ row.status = .refunded
    generalize row.status = status at hlifecycle
    revert hlifecycle
    cases status <;> decide

end Workflow

open BookingController (serialize)

/-- **Answers only age.** In every run of the API, at any moment `s` and any later one `t`:
    `get` fails for a text that is no UUID, and with 404 exactly for one whose booking is not
    stored; its answer shows the hashes of its state, and what `get` answers later for any
    spelling of the id is later, and the same unless the state has moved on; what `create`
    answers is what `get` answers from then on; and what a call of `fund`, `checkIn`, `refund`
    or `confirm` has returned comes after its own move, and before whatever `get` answers. -/
theorem answers_age (C : Config) (s₀ s t : Server) (as bs : List Action) (h₀ : Fresh s₀)
    (hrun : (machine C).exec s₀ as = some s) (hrest : (machine C).exec s bs = some t) :
    (∀ text e, BookingController.get C.runtime C.network s.db text = .error e ↔
      C.runtime.uuid text = none ∧ e = .internal ∨
      ∃ id, C.runtime.uuid text = some id ∧ s.db.bookings.lookup id = none ∧
        e = .notFound "Booking not found") ∧
    (∀ text r, BookingController.get C.runtime C.network s.db text = .ok r → r.Formed ∧
      C.runtime.uuid text = some r.id ∧ ∀ text', C.runtime.uuid text' = some r.id →
      ∃ r', BookingController.get C.runtime C.network t.db text' = .ok r' ∧ r.Later r' ∧
        (r'.state = r.state → r' = r)) ∧
    (∀ sender now uuid body db r, C.runtime.Canonical uuid →
      BookingController.create C.runtime C.network s.db now uuid body = .ok (db, r) →
      ∃ s', step C s (.create sender now uuid body) = some s' ∧ s'.db = db ∧
        BookingController.get C.runtime C.network s'.db uuid = .ok r) ∧
    (∀ k p b, s.flow.call? k = some p → p.stage = .returned b → p.op.target ∈ path b.state ∧
      ∃ r, BookingController.get C.runtime C.network t.db p.op.id = .ok r ∧
        (serialize C.network b).Later r) := by
  obtain ⟨fs, hfs⟩ := flow_of_exec hrun
  obtain ⟨gs, hgs⟩ := flow_of_exec hrest
  have hs := Workflow.recalled_of_exec h₀.flow hfs
  have ht : Workflow.Recalled C.network t.flow :=
    (Workflow.machine C.runtime C.network).exec_invariant Workflow.recalled_step hgs hs
  refine ⟨fun text e => BookingController.get_eq_error, fun text r hr => ?_,
    fun sender now uuid body db r huuid hr => ?_, fun k p b hp hreturned => ?_⟩
  · obtain ⟨row, ⟨id, hid, hrow⟩, rfl⟩ := BookingController.get_eq_ok.mp hr
    obtain rfl : row.id = id := hs.paid.coherent.keyed id row hrow
    obtain ⟨row', hrow', hlater⟩ := hs.past_exec hgs ⟨row, hrow, later_refl _⟩
    have hformed := hs.formed hrow
    exact ⟨hformed, hid, fun text' hid' =>
      ⟨_, BookingController.get_eq_ok.mpr ⟨row', ⟨row.id, hid', hrow'⟩, rfl⟩, hlater,
        hlater.eq_of_state hformed (ht.formed hrow')⟩⟩
  · obtain ⟨input, b, hparse, hcreate, rfl⟩ := BookingController.create_eq_ok.mp hr
    refine ⟨{ s with flow := { s.flow with db := db } }, ?_, rfl, ?_⟩
    · simp only [step, hparse, Server.drive, Workflow.step, Server.db, huuid] at hcreate ⊢
      rw [hcreate]
      rfl
    · obtain ⟨row, hrow, hload⟩ := Workflow.stored_of_create hcreate
      exact BookingController.get_eq_ok.mpr ⟨row, ⟨uuid, huuid, hrow⟩, by rw [hload]⟩
  · obtain ⟨hpast, htarget⟩ := hs.readings k p b hp (by rw [hreturned]; rfl)
    obtain ⟨row, hrow, hlater⟩ := hs.past_exec hgs hpast
    have hspelled := Workflow.spelled_of_exec h₀.flow
      ((Workflow.machine C.runtime C.network).exec_trans hfs hgs)
    exact ⟨htarget hreturned, _,
      BookingController.get_eq_ok.mpr ⟨row, ⟨_, hspelled _ row hrow, hrow⟩, rfl⟩, hlater⟩

theorem answers_age_funded : ∃ s t r r',
    (machine sampleConfig).exec listedServer [bookRequest] = some s ∧
    (machine sampleConfig).exec s fundRequest = some t ∧
    BookingController.get sampleConfig.runtime "TESTNET" s.db
      "3B241101-E2BB-4255-8CAF-4136C566A962" = .ok r ∧
    BookingController.get sampleConfig.runtime "TESTNET" t.db
      "3b241101-e2bb-4255-8caf-4136c566a962" = .ok r' ∧
    r.fundingTransactionHash = none ∧ r'.fundingTransactionHash.isSome = true ∧ r.Later r' := by
  obtain ⟨s, t, r, hbook, hfund, hr, hid, hnone⟩ : ∃ s t r,
      (machine sampleConfig).exec listedServer [bookRequest] = some s ∧
      (machine sampleConfig).exec s fundRequest = some t ∧
      BookingController.get sampleConfig.runtime "TESTNET" s.db
        "3B241101-E2BB-4255-8CAF-4136C566A962" = .ok r ∧
      r.id = "3b241101-e2bb-4255-8caf-4136c566a962" ∧
      r.fundingTransactionHash = none := ⟨_, _, _, rfl, rfl, rfl, rfl, rfl⟩
  obtain ⟨r', hr', hsome⟩ : ∃ r', BookingController.get sampleConfig.runtime "TESTNET" t.db
      "3b241101-e2bb-4255-8caf-4136c566a962" = .ok r' ∧ r'.fundingTransactionHash.isSome = true := by
    cases hbook
    cases hfund
    exact ⟨_, rfl, rfl⟩
  have h := answers_age sampleConfig listedServer s t [bookRequest] fundRequest fresh_listedServer
    hbook hfund
  obtain ⟨-, -, hlater⟩ := h.2.1 _ r hr
  obtain ⟨x, hx, hlater, -⟩ := hlater "3b241101-e2bb-4255-8caf-4136c566a962" (by rw [hid]; rfl)
  obtain rfl : r' = x := Except.ok.inj (hr'.symm.trans hx)
  exact ⟨s, t, r, r', hbook, hfund, hr, hr', hnone, hsome, hlater⟩

end PovDeposit.Api
