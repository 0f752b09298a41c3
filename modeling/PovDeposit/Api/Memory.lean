/-
  `BookingWorkflowService` without a database, and the database beside it
  (apps/api/src/booking/booking-workflow.service.ts, the branches without a `prisma`).

  Without a database a booking is one object in a `Map`, and an operation checks and changes
  it with nothing in between. `served` reads off a step of the workflow which request it makes
  good: a booking that is stored, or a call whose status change becomes durable. Handed to the
  service in memory, these requests are all accepted, and leave bookings that agree with the
  rows of the database (`Mirrors`, `mirrors_step`) in everything but the settlement of a
  completed visit, which the database does not keep.
-/
import PovDeposit.Api.Payments

namespace PovDeposit.Api.Memory

open PovDeposit.Lib PovDeposit.Lib.Outcome
open Workflow (CreateBooking Call Operation Paid load moves_of_step call?_of_move call?_of_append)

/-- `Booking`, without its timestamps. -/
structure Booking extends CreateBooking where
  id : String
  onChainBookingId : String
  state : BookingStatus
  fundingTransactionHash : Option String
  checkInProofHash : Option String
  settlementTransactionHash : Option String
  deriving DecidableEq, Repr

/-- `bookings`, under their ids. -/
abbrev Bookings := AList fun _ : String => Booking

/-- The booking that `create` stores. -/
def newBooking (uuid onChain : String) (input : CreateBooking) : Booking :=
  { input with
    id := uuid
    onChainBookingId := onChain
    state := .pendingFunding
    fundingTransactionHash := none
    checkInProofHash := none
    settlementTransactionHash := none }

/-- `create`, at time `now` with the UUID `randomUUID` returned. -/
def create (R : Runtime) (bookings : Bookings) (now : Int) (uuid : String)
    (input : CreateBooking) : Except String (Bookings × Booking) :=
  if input.renter = input.host then .error "Renter and host must differ"
  else if input.depositAmount ≤ 0 ∨ 100000000000 < input.depositAmount then
    .error "Deposit amount out of bounds"
  else if (R.date input.visitTime).any fun t => t ≤ now then
    .error "Visit time must be in the future"
  else if ¬ isHash input.evidenceHash then .error "Invalid evidence hash"
  else match onChainBookingId uuid with
    | none => .error "Cannot convert to a BigInt"
    | some onChain =>
      let booking := newBooking uuid onChain input
      .ok (bookings.insert uuid booking, booking)

def get (bookings : Bookings) (id : String) : Except String Booking :=
  match bookings.lookup id with
  | some booking => .ok booking
  | none => .error "Booking not found"

/-- The checks of an operation. In memory none of them asks for the metadata of a payment. -/
def check (op : Operation) (booking : Booking) : Except String Unit :=
  if booking.state ≠ op.source then .error op.stateError
  else match op.party.filter fun p => p.role.of booking.renter booking.host ≠ p.actor with
    | some p => .error p.error
    | none => if ¬ isHash op.hash then .error "Invalid transaction or evidence hash" else .ok ()

/-- The changes that each operation hands to `update`. -/
def changes : Call → Booking → Booking
  | .fund _ transactionHash _, booking =>
      { booking with state := .funded, fundingTransactionHash := some transactionHash }
  | .checkIn _ _ proofHash, booking =>
      { booking with state := .checkedIn, checkInProofHash := some proofHash }
  | .refund _ _ transactionHash _, booking =>
      { booking with state := .refunded, settlementTransactionHash := some transactionHash }
  | .confirm _ _ transactionHash, booking =>
      { booking with state := .completed, settlementTransactionHash := some transactionHash }

/-- `fund`, `checkIn`, `refund` and `confirm` -/
def call (bookings : Bookings) (c : Call) : Except String (Bookings × Booking) := do
  let booking ← get bookings c.op.id
  check c.op booking
  return (bookings.insert c.op.id (changes c booking), changes c booking)

inductive Action where
  | create (now : Int) (uuid : String) (input : CreateBooking)
  | call (call : Call)
  deriving DecidableEq, Repr

/-- The bookings after a request that was accepted. -/
def step (R : Runtime) (bookings : Bookings) : Action → Option Bookings
  | .create now uuid input => (create R bookings now uuid input).toOption.map Prod.fst
  | .call c => (call bookings c).toOption.map Prod.fst

def machine (R : Runtime) : Machine Bookings Action where
  init := (· = ∅)
  step := step R

/-! ## The database beside it -/

/-- The request that a step of the workflow makes good, if it does. -/
def served (R : Runtime) (network : String) (s : Workflow.State) : Workflow.Action → List Action
  | .create now uuid input =>
      match Workflow.create R network s.db now uuid input with
      | .ok _ => [.create now uuid input]
      | .error _ => []
  | .advance i =>
      match s.call? i, (Workflow.step R network s (.advance i)).bind fun s' => s'.call? i with
      | some p, some p' => if p'.durable && !p.durable then [.call p.call] else []
      | _, _ => []
  | _ => []

/-- A durable call moved booking `id` to `target`, with this hash. -/
def Moved (s : Workflow.State) (id : String) (target : BookingStatus) (hash : String) : Prop :=
  ∃ i p, s.call? i = some p ∧ p.durable = true ∧ p.op.id = id ∧ p.op.target = target ∧
    p.op.hash = hash

/-- The two hashes that `fromDatabase` finds among the payments of a booking. -/
def fundingOf (ts : List PaymentTransaction) : Option String :=
  (ts.find? fun t => t.kind = .fund).map (·.hash)

def settlementOf (ts : List PaymentTransaction) : Option String :=
  (ts.find? fun t => t.kind ≠ .fund).map (·.hash)

theorem load_funding (db : Db) (row : BookingRow) :
    (load db row).fundingTransactionHash = fundingOf (paymentsOf db row.id) := rfl

theorem load_settlement (db : Db) (row : BookingRow) :
    (load db row).settlementTransactionHash = settlementOf (paymentsOf db row.id) := rfl

theorem fundingOf_of_mem {ts : List PaymentTransaction} {t : PaymentTransaction} (ht : t ∈ ts)
    (hkind : t.kind = .fund) : ∃ hash, fundingOf ts = some hash := by
  have hsome : (fundingOf ts).isSome = true := by
    rw [fundingOf, Option.isSome_map, List.find?_isSome]
    exact ⟨t, ht, decide_eq_true hkind⟩
  exact Option.isSome_iff_exists.mp hsome

theorem settlementOf_of_mem {ts : List PaymentTransaction} {t : PaymentTransaction} (ht : t ∈ ts)
    (hkind : t.kind ≠ .fund) : ∃ hash, settlementOf ts = some hash := by
  have hsome : (settlementOf ts).isSome = true := by
    rw [settlementOf, Option.isSome_map, List.find?_isSome]
    exact ⟨t, ht, decide_eq_true hkind⟩
  exact Option.isSome_iff_exists.mp hsome

/-- A row and the booking in memory. -/
structure Agrees (s : Workflow.State) (row : BookingRow) (b : Booking) : Prop where
  renter : b.renter = row.renter
  host : b.host = row.host
  state : b.state = row.status
  proof : b.checkInProofHash = row.checkInProofHash
  funding : b.fundingTransactionHash = fundingOf (paymentsOf s.db row.id)
  settlement : row.status ≠ .completed →
    b.settlementTransactionHash = settlementOf (paymentsOf s.db row.id)
  completed : row.status = .completed → b.settlementTransactionHash.isSome = true
  funded : ∀ hash ∈ b.fundingTransactionHash, Moved s row.id .funded hash
  settled : ∀ hash ∈ b.settlementTransactionHash, Moved s row.id row.status hash

/-- The rows agree with the bookings in memory, and every call past its checks has a hash. -/
structure Mirrors (s : Workflow.State) (m : Bookings) : Prop where
  paid : Paid s
  hashes : ∀ i p b, s.call? i = some p → p.stage.snapshot = some b → isHash p.op.hash = true
  rows : ∀ id row, s.db.bookings.lookup id = some row → ∃ b, m.lookup id = some b ∧ Agrees s row b

theorem mirrors_of_fresh {s : Workflow.State} (h : Workflow.Fresh s) : Mirrors s ∅ := by
  refine ⟨Workflow.paid_of_fresh h, fun i p b hp => ?_, fun id row hrow => ?_⟩
  · rw [Workflow.State.call?, h.calls] at hp
    cases hp
  · rw [h.bookings, AList.lookup_empty] at hrow
    cases hrow

section Step

variable {R : Runtime} {network : String} {s s' : Workflow.State} {a : Workflow.Action}

theorem moved_step (hstep : Workflow.step R network s a = some s') {id : String}
    {target : BookingStatus} {hash : String} (h : Moved s id target hash) :
    Moved s' id target hash := by
  obtain ⟨i, p, hp, hdurable, hid, htarget, hhash⟩ := h
  obtain ⟨p', hp', hcall, hkeep⟩ := Workflow.call_step hstep hp
  have hop : p'.op = p.op := by rw [Workflow.Process.op, hcall]
  exact ⟨i, p', hp', hkeep hdurable, by rw [hop, hid], by rw [hop, htarget], by rw [hop, hhash]⟩

theorem hashes_step
    (h : ∀ i p b, s.call? i = some p → p.stage.snapshot = some b → isHash p.op.hash = true)
    (hstep : Workflow.step R network s a = some s') :
    ∀ i p b, s'.call? i = some p → p.stage.snapshot = some b → isHash p.op.hash = true := by
  intro j q b hq hb
  cases moves_of_step hstep with
  | rejected => exact h j q b hq hb
  | create => exact h j q b hq hb
  | others => exact h j q b hq hb
  | call c =>
    rcases call?_of_append rfl hq with hq | rfl
    · exact h j q b hq hb
    · rw [Workflow.enter_snapshot] at hb
      cases hb
  | quiet _ i p stage _ hp hquiet =>
    rcases call?_of_move hp rfl hq with ⟨rfl, rfl⟩ | ⟨-, hq⟩
    · cases hquiet with
      | read b' row hstage hrow hb' hcheck => exact (Workflow.check_eq_ok hcheck).2.2.1
      | opened b' row hstage => exact h j p b' hp (by rw [hstage]; rfl)
      | paid b' hstage => exact h j p b' hp (by rw [hstage]; rfl)
      | logged b' hstage => exact h j p b' hp (by rw [hstage]; rfl)
      | returned => cases hb
      | threw => cases hb
      | stopped => cases hb
    · exact h j q b hq hb
  | update i p b' row hp hstage =>
    rcases call?_of_move hp rfl hq with ⟨rfl, rfl⟩ | ⟨-, hq⟩
    · exact h j p b' hp (by rw [hstage]; rfl)
    · exact h j q b hq hb
  | record i p b' hp =>
    rcases call?_of_move hp rfl hq with ⟨rfl, rfl⟩ | ⟨-, hq⟩
    · cases hb
    · exact h j q b hq hb
  | commit i p b' kind v missing hp =>
    rcases call?_of_move hp rfl hq with ⟨rfl, rfl⟩ | ⟨-, hq⟩
    · cases hb
    · exact h j q b hq hb

/-- A row whose payments stay the same agrees with what it agreed with. -/
theorem Agrees.keep {row : BookingRow} {b : Booking} (h : Agrees s row b)
    (hstep : Workflow.step R network s a = some s')
    (hpayments : paymentsOf s'.db row.id = paymentsOf s.db row.id) : Agrees s' row b := by
  exact
    { h with
      funding := by rw [hpayments, h.funding]
      settlement := fun hne => by rw [hpayments, h.settlement hne]
      funded := fun hash hmem => moved_step hstep (h.funded hash hmem)
      settled := fun hash hmem => moved_step hstep (h.settled hash hmem) }

/-! ## A call that lands -/

/-- The payments of a call, by what the service reads of them. -/
def Brings (c : Call) (ts : List PaymentTransaction) : Prop :=
  ts.map (fun t => (t.kind, t.hash)) = (c.op.payment.map fun pay => (pay.kind, c.op.hash)).toList

theorem brings_none {c : Call} (hpay : c.op.payment = none) : Brings c [] := by
  unfold Brings
  rw [hpay]
  rfl

theorem brings_payment {c : Call} {b : Workflow.Booking} {kind : TransactionKind}
    {v : Workflow.Verification} {missing : String}
    (hpay : c.op.payment = some ⟨kind, some v, missing⟩) : Brings c [c.op.paymentRow b kind v] := by
  unfold Brings
  rw [hpay]
  rfl

section Landing

variable {c : Call} {row : BookingRow} {b : Booking} {ts : List PaymentTransaction}

/-- Row and booking move together. -/
theorem Agrees.land (hs : Paid s) (h : Agrees s row b)
    (hrow : s.db.bookings.lookup row.id = some row) (hadmits : c.op.admits row = true)
    (hstep : Workflow.step R network s a = some s')
    (hpayments : paymentsOf s'.db row.id = paymentsOf s.db row.id ++ ts) (hts : Brings c ts)
    (hmoved : Moved s' row.id c.op.target c.op.hash) :
    Agrees s' (c.op.apply row) (changes c b) := by
  have hsource : row.status = c.op.source := (Workflow.admits_iff.mp hadmits).1
  have hdues := hs.dues row.id row hrow
  have hfunded : ∀ hash ∈ b.fundingTransactionHash, Moved s' row.id .funded hash :=
    fun hash hmem => moved_step hstep (h.funded hash hmem)
  -- before a settlement nothing is settled
  have hunsettled : settlementOf (paymentsOf s.db row.id) = none → row.status ≠ .completed →
      b.settlementTransactionHash = none := fun hnone hne => (h.settlement hne).trans hnone
  rw [hsource] at hdues
  cases c with
  | fund id hash v =>
    have hnil : paymentsOf s.db row.id = [] := List.map_eq_nil_iff.mp hdues
    obtain ⟨t, rfl, ht⟩ := List.map_eq_singleton_iff.mp hts
    have hkind : t.kind = .fund := (Prod.mk.inj ht).1
    have hhash : t.hash = hash := (Prod.mk.inj ht).2
    have hnone := hunsettled (by rw [hnil]; rfl) (by rw [hsource]; nofun)
    rw [hnil, List.nil_append] at hpayments
    refine ⟨h.renter, h.host, rfl, h.proof, ?_, fun _ => ?_, nofun, ?_, ?_⟩
    · show some hash = fundingOf (paymentsOf s'.db row.id)
      rw [hpayments]
      simp [fundingOf, hkind, hhash]
    · show b.settlementTransactionHash = settlementOf (paymentsOf s'.db row.id)
      rw [hpayments, hnone]
      simp [settlementOf, hkind]
    · rintro _ ⟨⟩
      exact hmoved
    · intro x hx
      rw [show (changes (.fund id hash v) b).settlementTransactionHash = none from hnone] at hx
      cases hx
  | checkIn id actor hash =>
    obtain ⟨t, ht, hkind, -⟩ := Workflow.over_one hdues
    obtain rfl : ts = [] := List.map_eq_nil_iff.mp hts
    rw [List.append_nil] at hpayments
    have hnone := hunsettled (by simp [ht, settlementOf, hkind]) (by rw [hsource]; nofun)
    refine ⟨h.renter, h.host, rfl, rfl, ?_, fun _ => ?_, nofun, hfunded, ?_⟩
    · show b.fundingTransactionHash = fundingOf (paymentsOf s'.db row.id)
      rw [hpayments, h.funding]
    · show b.settlementTransactionHash = settlementOf (paymentsOf s'.db row.id)
      rw [hpayments, hnone]
      simp [ht, settlementOf, hkind]
    · intro x hx
      rw [show (changes (.checkIn id actor hash) b).settlementTransactionHash = none from hnone] at hx
      cases hx
  | refund id actor hash v =>
    obtain ⟨t, ht, hkind, -⟩ := Workflow.over_one hdues
    obtain ⟨t', rfl, ht'⟩ := List.map_eq_singleton_iff.mp hts
    have hkind' : t'.kind = .refund := (Prod.mk.inj ht').1
    have hhash' : t'.hash = hash := (Prod.mk.inj ht').2
    rw [ht, List.singleton_append] at hpayments
    refine ⟨h.renter, h.host, rfl, h.proof, ?_, fun _ => ?_, nofun, hfunded, ?_⟩
    · show b.fundingTransactionHash = fundingOf (paymentsOf s'.db row.id)
      rw [hpayments, h.funding, ht]
      simp [fundingOf, hkind]
    · show some hash = settlementOf (paymentsOf s'.db row.id)
      rw [hpayments]
      simp [settlementOf, hkind, hkind', hhash']
    · rintro _ ⟨⟩
      exact hmoved
  | confirm id actor hash =>
    obtain rfl : ts = [] := List.map_eq_nil_iff.mp hts
    rw [List.append_nil] at hpayments
    refine ⟨h.renter, h.host, rfl, h.proof, ?_, fun hne => absurd rfl hne, fun _ => rfl, hfunded, ?_⟩
    · show b.fundingTransactionHash = fundingOf (paymentsOf s'.db row.id)
      rw [hpayments, h.funding]
    · rintro _ ⟨⟩
      exact hmoved

end Landing

/-! ## The requests in memory -/

/-- What the database stores, the service in memory stores. -/
theorem create_accepted {db : Db} {now : Int} {uuid : String} {input : CreateBooking}
    {r : Db × Workflow.Booking} (h : Workflow.create R network db now uuid input = .ok r)
    (m : Bookings) :
    ∃ onChain, step R m (.create now uuid input) =
      some (m.insert uuid (newBooking uuid onChain input)) := by
  simp only [Workflow.create, guard_eq_ok] at h
  obtain ⟨hparties, hamount, hfuture, hhash, h⟩ := h
  split at h
  · rename_i onChain visitTime honChain hdate
    have hcreate : create R m now uuid input =
        .ok (m.insert uuid (newBooking uuid onChain input), newBooking uuid onChain input) := by
      unfold create
      rw [if_neg hparties, if_neg hamount, if_neg hfuture, if_neg hhash, honChain]
    refine ⟨onChain, ?_⟩
    show (create R m now uuid input).toOption.map Prod.fst = _
    rw [hcreate]
    rfl
  · cases h
  · cases h

/-- What a row admits, the booking in memory passes. -/
theorem call_accepted {c : Call} {row : BookingRow} {b : Booking} {m : Bookings}
    (h : Agrees s row b) (hm : m.lookup c.op.id = some b) (hadmits : c.op.admits row = true)
    (hhash : isHash c.op.hash = true) :
    step R m (.call c) = some (m.insert c.op.id (changes c b)) := by
  obtain ⟨hsource, hparty⟩ := Workflow.admits_iff.mp hadmits
  have hget : get m c.op.id = .ok b := by
    unfold get
    rw [hm]
  have hnone : (c.op.party.filter fun p => p.role.of b.renter b.host ≠ p.actor) = none := by
    refine Option.filter_eq_none_iff.mpr fun p hp => ?_
    simp [h.renter, h.host, hparty p hp]
  have hcheck : check c.op b = .ok () := by
    unfold check
    rw [if_neg (not_not.mpr (h.state.trans hsource)), hnone]
    simp [hhash]
  have hcall : call m c = .ok (m.insert c.op.id (changes c b), changes c b) := by
    unfold call
    rw [hget]
    show (check c.op b >>= _) = _
    rw [hcheck]
    rfl
  show (call m c).toOption.map Prod.fst = _
  rw [hcall]
  rfl

/-! ## Steps -/

/-- A step that changes no row and no payment. -/
theorem Mirrors.keep {m : Bookings} (h : Mirrors s m)
    (hstep : Workflow.step R network s a = some s')
    (hbookings : s'.db.bookings = s.db.bookings) (hpayments : s'.db.payments = s.db.payments) :
    Mirrors s' m := by
  refine ⟨Workflow.paid_step s a s' h.paid hstep, hashes_step h.hashes hstep, fun id row hrow => ?_⟩
  rw [hbookings] at hrow
  obtain ⟨b, hb, hagrees⟩ := h.rows id row hrow
  have hsame : paymentsOf s'.db row.id = paymentsOf s.db row.id := by
    unfold paymentsOf
    rw [hpayments]
  exact ⟨b, hb, hagrees.keep hstep hsame⟩

/-- A booking is stored on both sides. -/
theorem Mirrors.created {m : Bookings} (h : Mirrors s m) {uuid : String} {input : CreateBooking}
    {row : BookingRow} (onChain : String) (hstep : Workflow.step R network s a = some s')
    (hrow : Workflow.Created R s.db uuid input s'.db row) :
    Mirrors s' (m.insert uuid (newBooking uuid onChain input)) := by
  refine ⟨Workflow.paid_step s a s' h.paid hstep, hashes_step h.hashes hstep, fun id x hx => ?_⟩
  have hsame : ∀ id, paymentsOf s'.db id = paymentsOf s.db id := by
    intro id
    unfold paymentsOf
    rw [hrow.payments]
  rw [hrow.bookings] at hx
  rw [← hrow.id]
  rcases lookup_of_insert hx with ⟨rfl, rfl⟩ | ⟨hne, hold⟩
  · have hnil : paymentsOf s'.db x.id = [] := by
      rw [hsame]
      exact h.paid.paymentsOf_eq_nil hrow.fresh
    refine ⟨_, AList.lookup_insert _, hrow.renter.symm, hrow.host.symm, hrow.status.symm,
      hrow.proof.symm, ?_, fun _ => ?_, ?_, nofun, nofun⟩
    · rw [hnil]
      rfl
    · rw [hnil]
      rfl
    · intro hc
      rw [hrow.status] at hc
      cases hc
  · obtain ⟨b, hb, hagrees⟩ := h.rows id x hold
    refine ⟨b, ?_, hagrees.keep hstep (hsame _)⟩
    rw [lookup_insert, if_neg hne]
    exact hb

/-- A call lands on both sides. -/
theorem Mirrors.landed {m : Bookings} (h : Mirrors s m) {c : Call} {row : BookingRow}
    {ts : List PaymentTransaction} (hstep : Workflow.step R network s a = some s')
    (hrow : s.db.bookings.lookup c.op.id = some row) (hadmits : c.op.admits row = true)
    (hhash : isHash c.op.hash = true)
    (hbookings : s'.db.bookings = s.db.bookings.insert c.op.id (c.op.apply row))
    (hpayments : s'.db.payments = s.db.payments ++ ts) (hts : Brings c ts)
    (hids : ∀ t ∈ ts, t.bookingId = c.op.id) (hmoved : Moved s' c.op.id c.op.target c.op.hash) :
    ∃ m', step R m (.call c) = some m' ∧ Mirrors s' m' := by
  obtain ⟨b, hb, hagrees⟩ := h.rows _ row hrow
  refine ⟨_, call_accepted hagrees hb hadmits hhash, Workflow.paid_step s a s' h.paid hstep,
    hashes_step h.hashes hstep, fun id x hx => ?_⟩
  have hpast : ∀ id, paymentsOf s'.db id =
      paymentsOf s.db id ++ ts.filter fun t => t.bookingId = id := by
    intro id
    unfold paymentsOf
    rw [hpayments, List.filter_append]
  have hid : row.id = c.op.id := h.paid.coherent.keyed _ row hrow
  rw [hbookings] at hx
  rcases lookup_of_insert hx with ⟨rfl, rfl⟩ | ⟨hne, hold⟩
  · refine ⟨_, AList.lookup_insert _, hagrees.land h.paid (hid ▸ hrow) hadmits hstep ?_ hts
      (hid ▸ hmoved)⟩
    rw [hpast, List.filter_eq_self.mpr fun t ht => by rw [hids t ht, hid]; simp]
  · obtain ⟨b', hb', hagrees'⟩ := h.rows id x hold
    have hxid : x.id = id := h.paid.coherent.keyed id x hold
    refine ⟨b', ?_, hagrees'.keep hstep ?_⟩
    · rw [lookup_insert, if_neg hne]
      exact hb'
    · rw [hpast, List.filter_eq_nil_iff.mpr fun t ht => ?_, List.append_nil]
      rw [hids t ht, hxid]
      simpa using Ne.symm hne

theorem served_advance {i : Nat} {p p' : Workflow.Process} (hp : s.call? i = some p)
    (hstep : Workflow.step R network s (.advance i) = some s') (hp' : s'.call? i = some p') :
    served R network s (.advance i) =
      if p'.durable && !p.durable then [.call p.call] else [] := by
  simp only [served, hp, hstep, Option.bind_some, hp']

theorem mirrors_advance {i : Nat} {m : Bookings} (h : Mirrors s m)
    (hstep : Workflow.step R network s (.advance i) = some s') :
    ∃ m', (machine R).exec m (served R network s (.advance i)) = some m' ∧ Mirrors s' m' := by
  cases moves_of_step hstep with
  | quiet _ j p stage hmover hp hquiet =>
    obtain rfl : i = j := Option.some.inj hmover
    rw [served_advance hp hstep (Workflow.call?_move_self hp)]
    refine ⟨m, ?_, h.keep hstep rfl rfl⟩
    simp [Bool.and_not_self]
  | record j p b hp hstage hpay =>
    rw [served_advance hp hstep (Workflow.call?_move_self hp)]
    refine ⟨m, ?_, h.keep hstep rfl rfl⟩
    simp [Bool.and_not_self]
  | update j p b row hp hstage hpay hfree hrow hadmits =>
    have hbefore : p.durable = false :=
      h.paid.coherent.expected i p false hp (by rw [Workflow.Process.expected, hstage])
    obtain ⟨m', hm', hmirrors⟩ := h.landed (c := p.call) hstep hrow hadmits
      (h.hashes i p b hp (by rw [hstage]; rfl)) rfl (List.append_nil _).symm (brings_none hpay)
      (fun t ht => absurd ht List.not_mem_nil) ⟨i, _, Workflow.call?_move_self hp, rfl, rfl, rfl, rfl⟩
    rw [served_advance hp hstep (Workflow.call?_move_self hp)]
    refine ⟨m', ?_, hmirrors⟩
    simp [hbefore, Machine.exec, machine, hm']
  | commit j p b kind v missing hp hstage hpay =>
    have hbefore : p.durable = false :=
      h.paid.coherent.expected i p false hp (by rw [Workflow.Process.expected, hstage])
    obtain ⟨-, row, hrow, hadmits⟩ := h.paid.coherent.committing hp hstage hpay
    obtain ⟨m', hm', hmirrors⟩ := h.landed (c := p.call) hstep hrow hadmits
      (h.hashes i p b hp (by rw [hstage]; rfl)) (Workflow.commit_bookings hrow hadmits)
      Workflow.commit_payments (brings_payment hpay)
      (fun t ht => by rw [List.mem_singleton.mp ht]; rfl) ⟨i, _, Workflow.call?_move_self hp, rfl, rfl, rfl, rfl⟩
    rw [served_advance hp hstep (Workflow.call?_move_self hp)]
    refine ⟨m', ?_, hmirrors⟩
    simp [hbefore, Machine.exec, machine, hm']

/-- **A step of the workflow, in memory.** The request it makes good is accepted, and the two
    sides agree again. -/
theorem mirrors_step (s : Workflow.State) (a : Workflow.Action) (s' : Workflow.State)
    (m : Bookings) (h : Mirrors s m) (hstep : Workflow.step R network s a = some s') :
    ∃ m', (machine R).exec m (served R network s a) = some m' ∧ Mirrors s' m' := by
  cases a with
  | create now uuid input =>
    obtain ⟨-, ⟨db, b, hcreate, rfl⟩ | ⟨e, hcreate, rfl⟩⟩ := Workflow.create_step hstep
    · obtain ⟨row, hrow⟩ := Workflow.created_of_create hcreate
      obtain ⟨onChain, hm'⟩ := create_accepted hcreate m
      refine ⟨_, ?_, h.created onChain hstep hrow⟩
      simp [served, hcreate, Machine.exec, machine, hm']
    · exact ⟨m, by simp [served, hcreate], h⟩
  | call c =>
    cases moves_of_step hstep with
    | call => exact ⟨m, rfl, h.keep hstep rfl rfl⟩
    | quiet _ _ _ _ hmover => cases hmover
  | advance i => exact mirrors_advance h hstep
  | fail i e =>
    cases moves_of_step hstep with
    | quiet => exact ⟨m, rfl, h.keep hstep rfl rfl⟩
  | stop i =>
    cases moves_of_step hstep with
    | quiet => exact ⟨m, rfl, h.keep hstep rfl rfl⟩
  | others wallets challenges =>
    cases moves_of_step hstep with
    | others => exact ⟨m, rfl, h.keep hstep rfl rfl⟩
    | quiet _ _ _ _ hmover => cases hmover

end Step

end PovDeposit.Api.Memory
