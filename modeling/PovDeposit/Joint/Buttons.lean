/-
  The buttons of the booking page, against the two sides they talk to
  (apps/web/lib/booking.ts, apps/web/components/booking-actions.tsx).

  `availableActions` looks at the status of the row and at its parties. The contract looks at
  the visit time too, so a renter is offered a cancellation that comes too late and a host a
  confirmation that comes too early. `buttons_honest_iff` has the exact condition: the call is
  in time, the contract can pay, and the event of the call is on the one page of events that
  the verifier reads.

  In the type of the page's booking the fields are those of the API's, whose JSON it is.
-/
import PovDeposit.Joint.Agreement
import PovDeposit.Joint.Reconciliation
import PovDeposit.Contract.Deadline

namespace PovDeposit.Joint

open PovDeposit.Lib PovDeposit.Lib.Outcome
open PovDeposit.Contract (Address Booking BookingState ContractEvent LoggedEvent Payable eventsOf)
open PovDeposit.Api (BookingRow BookingStatus Check Request)
open PovDeposit.Api.Workflow (Clear Verification)

inductive BookingAction where
  | issueChallenge
  | checkIn
  | confirm
  | cancel
  deriving DecidableEq, Repr

/-- `availableActions`; `!wallet` holds of an empty string too. -/
def availableActions (booking : Api.Workflow.Booking) (wallet : Option Address) :
    List BookingAction :=
  match wallet with
  | none => []
  | some wallet =>
    if wallet = "" then []
    else if booking.state = .funded then
      if wallet = booking.renter then [.checkIn, .cancel]
      else if wallet = booking.host then [.issueChallenge]
      else []
    else if booking.state = .checkedIn ∧ wallet = booking.host then [.confirm]
    else []

/-- What `run` does for an action that calls the escrow: the call, the request with the hash
    of its transaction, and the status that the request asks for. -/
structure EscrowAction where
  call : Contract.Call
  request : Request
  target : BookingStatus

/-- The branches of `run`, for the booking `id` with the `u64` id `n` on chain. -/
def BookingAction.run (id : String) (n : UInt64) (wallet : Address) (transactionHash : String) :
    BookingAction → Option EscrowAction
  | .issueChallenge => none
  | .checkIn => none
  | .confirm => some ⟨.confirmVisit wallet n, .confirm id wallet transactionHash, .completed⟩
  | .cancel => some ⟨.cancelBooking wallet n, .cancel id wallet transactionHash, .refunded⟩

/-! ## What an offer promises -/

/-- The page has the wallet sign the call, in a transaction of its own. -/
def EscrowAction.submit (x : EscrowAction) (wallet : Address) (hash : String)
    (acc : Address → Address → Address → Int → Bool) : ChainAction :=
  .transaction hash true [⟨[wallet], acc, x.call⟩]

/-- The requests that follow, with the first `limit` events of the ledger in the answer of
    the RPC server. -/
def EscrowAction.report (x : EscrowAction) (limit : Nat) (wallet : Address) (c : Chain)
    (server : Api.Server) (k : Nat) : List Api.Action :=
  Api.settlingRun wallet x.request (.success c.ledger.sequence c.ledger.timestamp.toNat)
    ((c.eventInfos c.ledger.sequence).take limit) server.exchanges.length
    server.flow.calls.length k

/-- The contract accepts the call, and then the API the request. -/
def Honest (S : Setup) (limit : Nat) (s : State) (id : String) (wallet : Address) (hash : String)
    (acc : Address → Address → Address → Int → Bool) (x : EscrowAction) : Prop :=
  (∃ σ, Contract.invoke (s.chain.ledger.env S.deployment hash [wallet] acc)
    s.chain.ledger.escrow x.call = .ok σ) ∧
  ∃ c, chainStep S.deployment s.chain (x.submit wallet hash acc) = some c ∧
    ∃ k server row, (Api.machine S.config).exec s.server (x.report limit wallet c s.server k) =
      some server ∧ server.db.bookings.lookup id = some row ∧ row.status = x.target

/-- A row and its booking on chain are in step. -/
def InStep : BookingStatus → Option BookingState → Prop
  | .pendingFunding, none => True
  | .pendingFunding, some .created => True
  | .funded, some .funded => True
  | .checkedIn, some .funded => True
  | .completed, some .released => True
  | .refunded, some .refunded => True
  | _, _ => False

/-- The contract takes cancellations before the visit time and confirmations from then on. -/
def BookingAction.InTime (now visitTime : UInt64) : BookingAction → Prop
  | .cancel => now < visitTime
  | .confirm => visitTime ≤ now
  | _ => True

/-- Nothing else is in the way: no contract signs with a wallet, the entries are not archived,
    the token lets the deposit go back, and the ledger has room on the first page of events. -/
structure Open (S : Setup) (limit : Nat) (s : State) (n : UInt64) (b : Booking) (wallet : Address)
    (hash : String) (acc : Address → Address → Address → Int → Bool) : Prop where
  signer : wallet ≠ S.deployment.contract
  payable : Payable (s.chain.ledger.env S.deployment hash [wallet] acc) s.chain.ledger.escrow n b
  page : (s.chain.eventInfos s.chain.ledger.sequence).length < limit

/-! ## What an offer does -/

/-- An offer `x` for the booking `n` on chain, which is `b`, of the row `row`: the event that
    its call publishes, and the move of the row that its request asks for. -/
structure Settles (S : Setup) (s : State) (id : String) (row : BookingRow) (n : UInt64) (b : Booking)
    (wallet : Address) (hash : String) (acc : Address → Address → Address → Int → Bool)
    (action : BookingAction) (x : EscrowAction) (check : Check) (event : ContractEvent) : Prop where
  request : x.request.check? = some check
  id : x.request.id = id
  valid : x.request.valid = true
  transaction : check.transactionHash = hash
  name : eventName event = check.expectedEvent
  booking : event.bookingId = n
  admits : ∀ v, (check.call v).op.admits row = true
  target : ∀ v, (check.call v).op.target = x.target
  accepted : wallet ≠ S.deployment.contract → action.InTime s.chain.ledger.timestamp b.visitTime →
    Payable (s.chain.ledger.env S.deployment hash [wallet] acc) s.chain.ledger.escrow n b →
    ∃ σ, Contract.invoke (s.chain.ledger.env S.deployment hash [wallet] acc)
      s.chain.ledger.escrow x.call = .ok σ
  committed : ∀ σ, Contract.invoke (s.chain.ledger.env S.deployment hash [wallet] acc)
      s.chain.ledger.escrow x.call = .ok σ →
    action.InTime s.chain.ledger.timestamp b.visitTime ∧
      Payable (s.chain.ledger.env S.deployment hash [wallet] acc) s.chain.ledger.escrow n b ∧
      σ.events = s.log ++ [⟨hash, s.chain.ledger.sequence, event⟩]

section Offers

variable {S : Setup} {s : State} (h : Backed S s) {id : String} {row : BookingRow}
  (hrow : s.db.bookings.lookup id = some row) {n : UInt64} {b : Booking}
  (hb : s.chain.ledger.escrow.booking? n = some b) (hfunded : b.state = .funded)
  (hagree : agreesWithRow b row = true) {hash : String} (hhash : isTransactionHash hash = true)
  (acc : Address → Address → Address → Int → Bool)
include h hrow hb hfunded hagree hhash

theorem settles_cancel (hstatus : row.status = .funded) :
    ∃ check event, Settles S s id row n b row.renter hash acc .cancel
      ⟨.cancelBooking row.renter n, .cancel id row.renter hash, .refunded⟩ check event := by
  have hsolvent := h.logged.chronicled.recorded.solvent
  obtain ⟨hrenter, -, -⟩ := terms_of_agrees hagree
  refine ⟨_, .depositRefunded n b.depositAmount, rfl, rfl, ?_, rfl, rfl, rfl, fun v => ?_,
    fun _ => rfl, fun hself htime hpayable => ?_, fun σ hσ => ?_⟩
  · simp [Request.valid, (h.texts id row hrow).1, isHash_of_isTransactionHash hhash]
  · exact Api.Workflow.admits_iff.mpr ⟨hstatus, fun p hp => by cases hp; rfl⟩
  · obtain ⟨σ, hσ, -⟩ := Contract.cancel_pays hsolvent hb hfunded hash [row.renter] acc
      hpayable.live (by simpa using hself.symm) (by simp [hrenter]) hpayable.accepted htime
    exact ⟨σ, hrenter ▸ hσ⟩
  · obtain ⟨hpayable, htime⟩ := Contract.payable_of_cancel hsolvent.keyed hb hfunded hσ
    exact ⟨htime, hpayable, Contract.events_of_cancel hsolvent.keyed hb hfunded hσ⟩

theorem settles_confirm (hstatus : row.status = .checkedIn) :
    ∃ check event, Settles S s id row n b row.host hash acc .confirm
      ⟨.confirmVisit row.host n, .confirm id row.host hash, .completed⟩ check event := by
  have hsolvent := h.logged.chronicled.recorded.solvent
  obtain ⟨-, hhost, -⟩ := terms_of_agrees hagree
  refine ⟨_, .visitConfirmed n b.depositAmount, rfl, rfl, ?_, rfl, rfl, rfl, fun v => ?_,
    fun _ => rfl, fun hself htime hpayable => ?_, fun σ hσ => ?_⟩
  · simp [Request.valid, (h.texts id row hrow).2, isHash_of_isTransactionHash hhash]
  · exact Api.Workflow.admits_iff.mpr ⟨hstatus, fun p hp => by cases hp; rfl⟩
  · obtain ⟨σ, hσ, -⟩ := Contract.confirm_pays hsolvent hb hfunded hash [row.host] acc
      hpayable.live (by simpa using hself.symm) (by simp [hhost]) hpayable.accepted htime
    exact ⟨σ, hhost ▸ hσ⟩
  · obtain ⟨hpayable, htime⟩ := Contract.payable_of_confirm hsolvent.keyed hb hσ
    exact ⟨htime, hpayable, Contract.events_of_confirm hsolvent.keyed hb hσ⟩

end Offers

/-! ## The way of the request -/

theorem evidence_of_payment {c : Api.Workflow.Call} (h : c.op.payment.isSome = true) :
    (evidence c.op.target).isSome = true := by
  cases c <;> first | rfl | cases h

theorem evidence_of_dues {kind : Api.TransactionKind} {status : BookingStatus}
    (h : kind ∈ Api.dues status) : (evidence (outcome kind)).isSome = true := by
  cases status <;> cases kind <;> first | rfl | (revert h; decide)

/-- No call takes a payment from a row that is checked in. -/
theorem source_of_payment {c : Api.Workflow.Call} (h : c.op.payment.isSome = true) :
    c.op.source ≠ .checkedIn := by
  intro hsource
  cases c <;> cases hsource
  cases h

section Requests

variable {S : Setup} {s : State} (h : Backed S s) {id : String} {row : BookingRow}
  (hrow : s.db.bookings.lookup id = some row)
include h

/-- The hash of a transaction that is yet to come is not in use at the API. -/
theorem Backed.unused_of_new {hash : String} (hnew : ∀ t ∈ s.chain.transactions, t.hash ≠ hash) :
    s.server.flow.hashTaken hash = false ∧ ∀ q ∈ s.db.payments, q.hash ≠ hash := by
  -- what rests on an event has the hash of a transaction that is recorded
  have hold : ∀ {status id hash'}, (evidence status).isSome = true →
      Evident s.log s.db status id hash' → hash' ≠ hash := by
    intro status id hash' hsome hevident
    obtain ⟨name, hname⟩ := Option.isSome_iff_exists.mp hsome
    obtain ⟨_, -, e, he, -, -, rfl⟩ := hevident name hname
    obtain ⟨t, ht, hhash, -⟩ := h.logged.events e he
    rw [← hhash]
    exact hnew t ht
  constructor
  · refine Api.Workflow.hashTaken_eq_false.mpr fun i p hp => ?_
    by_contra hholds
    obtain ⟨hpay, hhash, -⟩ := Api.Workflow.holdsHash_iff.mp (by simpa using hholds)
    exact hold (evidence_of_payment hpay) (h.calls i p hp).evident hhash
  · intro q hq
    obtain ⟨row, hrow⟩ := h.paid.known q hq
    have hmine : q ∈ Api.paymentsOf s.db q.bookingId := List.mem_filter.mpr ⟨hq, by simp⟩
    exact hold (evidence_of_dues ((h.paid.dues q.bookingId row hrow).kind_mem hmine))
      (h.payments q hq)

include hrow in
/-- No open transaction has locked the row of a booking that is funded on chain. -/
theorem Backed.unlocked_of_funded {n : UInt64} {b : Booking} (hid : idText n = row.onChainBookingId)
    (hb : s.chain.ledger.escrow.booking? n = some b) (hfunded : b.state = .funded)
    (hstatus : row.status = .funded ∨ row.status = .checkedIn) :
    s.server.flow.rowLocked id = false := by
  rcases hstatus with hstatus | hstatus
  · refine h.unlocked_of_released hrow hstatus fun hash hshown => ?_
    obtain ⟨m, x, a, e, hm, hx, ha, he, hevent, -⟩ := told_of_shown
      h.logged.chronicled Booking.refunded (fun b => by simp [Booking.events]) (fun b => rfl) hshown
    obtain rfl : m = n := idText_inj (hm.trans hid.symm)
    obtain rfl : b = x := Option.some.inj (hb.symm.trans hx)
    have hstory := h.logged.chronicled.told m b a hb ha
    have hmem : b.refunded ∈ (eventsOf m s.log).map LoggedEvent.event :=
      hevent ▸ List.mem_map_of_mem he
    exact hstory.not_refunded hfunded hmem
  · refine Api.Workflow.rowLocked_eq_false.mpr fun i p hp => ?_
    by_contra hlocked
    have hholds : p.holdsRow id = true := by simpa using hlocked
    obtain ⟨hpay, -, -⟩ := Api.Workflow.holdsRow_iff.mp hholds
    obtain ⟨x, hx, hadmits⟩ := h.paid.coherent.admitted i p id hp hholds
    obtain rfl : row = x := Option.some.inj (hrow.symm.trans hx)
    have hsource : p.op.source = .checkedIn := (Api.Workflow.admits_iff.mp hadmits).1.symm.trans hstatus
    exact source_of_payment hpay hsource

end Requests

/-! ## The page of events -/

/-- An event that comes last and is the only one of its transaction is on the first page where
    the page has room for it. -/
theorem any_take_concat {old : List Api.EventInfo} {e : Api.EventInfo} {hash id name : String}
    (hold : ∀ x ∈ old, x.txHash ≠ hash) (he : e.matches hash id name = true) (limit : Nat) :
    (∃ x ∈ (old ++ [e]).take limit, x.matches hash id name = true) ↔ old.length < limit := by
  constructor
  · rintro ⟨x, hx, hmatch⟩
    by_contra hfull
    rw [List.take_append_of_le_length (by omega)] at hx
    exact hold x (List.mem_of_mem_take hx) (Api.matches_iff.mp hmatch).2.1
  · intro hroom
    refine ⟨e, ?_, he⟩
    rw [List.take_of_length_le (by simp; omega)]
    exact List.mem_append_right _ (List.mem_singleton_self e)

section Honesty

variable {S : Setup} {s : State} (h : Backed S s) {id : String} {row : BookingRow}
  (hrow : s.db.bookings.lookup id = some row) {n : UInt64} (hid : idText n = row.onChainBookingId)
  {b : Booking} (hb : s.chain.ledger.escrow.booking? n = some b) (hfunded : b.state = .funded)
  (hstatus : row.status = .funded ∨ row.status = .checkedIn) {wallet : Address} {hash : String}
  (hhash : isTransactionHash hash = true) (hnew : ∀ t ∈ s.chain.transactions, t.hash ≠ hash)
  {acc : Address → Address → Address → Int → Bool} {action : BookingAction} {x : EscrowAction}
  {check : Check} {event : ContractEvent}
  (hx : Settles S s id row n b wallet hash acc action x check event)

/-- The chain after the transaction of an offer whose call was accepted. -/
def Chain.signed (c : Chain) (wallet : Address) (hash : String) (call : Contract.Call)
    (σ : Contract.Escrow) : Chain where
  ledger := c.ledger.commit [wallet] call σ
  transactions := c.transactions ++ [c.record hash true]

include hhash hnew in
theorem chainStep_submit {σ : Contract.Escrow}
    (hσ : Contract.invoke (s.chain.ledger.env S.deployment hash [wallet] acc)
      s.chain.ledger.escrow x.call = .ok σ) {c : Chain} :
    chainStep S.deployment s.chain (x.submit wallet hash acc) = some c ↔
      wallet ≠ S.deployment.contract ∧ c = s.chain.signed wallet hash x.call σ := by
  have hfresh : ¬ (isTransactionHash hash = false ∨
      s.chain.transactions.any (fun t => t.hash = hash) = true) := by
    simpa [hhash] using hnew
  have hexec : (Contract.ledgerMachine S.deployment).exec s.chain.ledger
      (invocations hash [⟨[wallet], acc, x.call⟩]) =
      if S.deployment.contract ∈ [wallet] then none
      else some (s.chain.ledger.commit [wallet] x.call σ) := by
    show (Contract.ledgerStep S.deployment s.chain.ledger (.invoke hash [wallet] acc x.call)).bind
      _ = _
    simp only [Contract.ledgerStep, hσ]
    split <;> rfl
  simp only [EscrowAction.submit, chainStep, if_neg hfresh, if_true, hexec, List.mem_singleton]
  constructor
  · intro hc
    obtain ⟨l, hl, rfl⟩ := Option.map_eq_some_iff.mp hc
    simp only [Option.ite_none_left_eq_some, Option.some.injEq] at hl
    obtain ⟨hself, rfl⟩ := hl
    exact ⟨fun heq => hself heq.symm, rfl⟩
  · rintro ⟨hself, rfl⟩
    rw [if_neg fun heq => hself heq.symm]
    rfl

include hx in
theorem eventInfos_signed {σ : Contract.Escrow}
    (hσ : Contract.invoke (s.chain.ledger.env S.deployment hash [wallet] acc)
      s.chain.ledger.escrow x.call = .ok σ) :
    (s.chain.signed wallet hash x.call σ).eventInfos s.chain.ledger.sequence =
      s.chain.eventInfos s.chain.ledger.sequence ++
        [eventInfo ⟨hash, s.chain.ledger.sequence, event⟩] := by
  obtain ⟨-, -, hevents⟩ := hx.committed σ hσ
  show (σ.events.filter _).map eventInfo = _
  rw [hevents, List.filter_append, List.map_append]
  simp [Chain.eventInfos]

include h hx hnew hid in
/-- The page with the event of an offer is enough for the verifier, and needed. -/
theorem verify_signed_iff {σ : Contract.Escrow}
    (hσ : Contract.invoke (s.chain.ledger.env S.deployment hash [wallet] acc)
      s.chain.ledger.escrow x.call = .ok σ) (limit : Nat) :
    (∃ e ∈ ((s.chain.signed wallet hash x.call σ).eventInfos s.chain.ledger.sequence).take limit,
      e.matches check.transactionHash row.onChainBookingId check.expectedEvent = true) ↔
      (s.chain.eventInfos s.chain.ledger.sequence).length < limit := by
  rw [eventInfos_signed hx hσ]
  refine any_take_concat (fun e he => ?_) (Api.matches_iff.mpr ⟨rfl, hx.transaction.symm, ?_, ?_⟩) limit
  · obtain ⟨logged, hlogged, rfl⟩ := List.mem_map.mp he
    obtain ⟨t, ht, hsame, -⟩ := h.logged.events logged (List.mem_filter.mp hlogged).1
    rw [hx.transaction, show (eventInfo logged).txHash = t.hash from hsame.symm]
    exact hnew t ht
  · exact congrArg (fun name => some (Api.Topic.string name)) hx.name
  · show idText event.bookingId = row.onChainBookingId
    rw [hx.booking, hid]

include h hrow hid hb hfunded hstatus hhash hnew hx in
/-- Nothing at the API is in the way of the request of an offer. -/
theorem clear_of_settles (v : Verification) : Clear s.server.flow (check.call v) row := by
  obtain ⟨hcallId, hcallHash, -, hverified⟩ := call_of_check hx.request v
  obtain ⟨huntaken, hunused⟩ := h.unused_of_new hnew
  have hhash' : (check.call v).op.hash = hash := hcallHash.trans hx.transaction
  have hid' : (check.call v).op.id = id := hcallId.trans hx.id
  exact ⟨hid' ▸ hrow, hx.admits v, hhash' ▸ isHash_of_isTransactionHash hhash, hverified,
    hid' ▸ h.unlocked_of_funded hrow hid hb hfunded hstatus, fun _ => hhash' ▸ huntaken,
    fun _ => hhash' ▸ hunused⟩

include h hrow hid hb hfunded hstatus hhash hnew hx in
theorem honest_iff_open (limit : Nat) : Honest S limit s id wallet hash acc x ↔
    action.InTime s.chain.ledger.timestamp b.visitTime ∧ Open S limit s n b wallet hash acc := by
  constructor
  · rintro ⟨⟨σ, hσ⟩, c, hc, k, t, _, hrun, -⟩
    obtain ⟨htime, hpayable, -⟩ := hx.committed σ hσ
    obtain ⟨hself, rfl⟩ := (chainStep_submit hhash hnew hσ).mp hc
    obtain ⟨r, v, hr, hv⟩ := Api.verified_of_settlingRun S.config hx.request hrun
    rw [hx.id, Api.names_iff (h.spelled id row hrow), hrow,
      Option.some.injEq] at hr
    subst hr
    obtain ⟨-, _, _, -, hshown, -⟩ := Api.verifyEvent_eq_ok.mp hv
    exact ⟨htime, hself, hpayable, (verify_signed_iff h hid hnew hx hσ limit).mp hshown⟩
  · rintro ⟨htime, hself, hpayable, hpage⟩
    obtain ⟨σ, hσ⟩ := hx.accepted hself htime hpayable
    let c := s.chain.signed wallet hash x.call σ
    let v : Verification := ⟨s.chain.ledger.sequence, s.chain.ledger.timestamp.toNat * 1000⟩
    have hv : Api.verifyEvent S.config.contractId
        (.success c.ledger.sequence c.ledger.timestamp.toNat)
        ((c.eventInfos c.ledger.sequence).take limit) check.transactionHash row.onChainBookingId
        check.expectedEvent = .ok v :=
      Api.verifyEvent_eq_ok.mpr ⟨S.configured, _, _, rfl,
        (verify_signed_iff h hid hnew hx hσ limit).mpr hpage, rfl⟩
    have hid' : (check.call v).op.id = id := (call_of_check hx.request v).1.trans hx.id
    have hclear := clear_of_settles h hrow hid hb hfunded hstatus hhash hnew hx v
    obtain ⟨k, t, hrun, hdone⟩ := Api.serve_settling S.config wallet hx.valid hx.request
      (hx.id.symm ▸ h.spelled id row hrow) (hx.id.symm ▸ hrow) hv hclear
    refine ⟨⟨σ, hσ⟩, c, (chainStep_submit hhash hnew hσ).mpr ⟨hself, rfl⟩, k, t,
      (check.call v).op.apply row, hrun, ?_, hx.target v⟩
    show t.flow.db.bookings.lookup id = _
    rw [hdone.bookings, hid', lookup_insert, if_pos rfl]

end Honesty

/-- The offers that call the escrow. -/
theorem offered_cases {booking : Api.Workflow.Booking} {wallet : Address} {action : BookingAction}
    (h : action ∈ availableActions booking (some wallet)) {id : String} {n : UInt64} {hash : String}
    {x : EscrowAction} (hx : action.run id n wallet hash = some x) :
    (action = .cancel ∧ booking.state = .funded ∧ wallet = booking.renter) ∨
      (action = .confirm ∧ booking.state = .checkedIn ∧ wallet = booking.host) := by
  simp only [availableActions] at h
  split_ifs at h with hempty hfunded hrenter hhost hchecked
  · cases h
  · rcases List.mem_cons.mp h with rfl | h
    · cases hx
    · exact .inl ⟨List.mem_singleton.mp h, hfunded, hrenter⟩
  · rw [List.mem_singleton.mp h] at hx
    cases hx
  · cases h
  · exact .inr ⟨List.mem_singleton.mp h, hchecked⟩
  · cases h

/-- A row that is funded or checked in is in step with a funded booking only. -/
theorem funded_of_inStep {status : BookingStatus} {booking : Option Booking}
    (h : InStep status (booking.map Booking.state)) (hstatus : status = .funded ∨ status = .checkedIn) :
    ∃ b, booking = some b ∧ b.state = .funded := by
  cases booking with
  | none => rcases hstatus with rfl | rfl <;> cases h
  | some b =>
    refine ⟨b, rfl, ?_⟩
    have hstep : InStep status (some b.state) := h
    cases hb : b.state with
    | funded => rfl
    | _ =>
      rw [hb] at hstep
      rcases hstatus with rfl | rfl <;> cases hstep

/-- **When the buttons are honest.** In every reachable state, for a row and a booking that have
    the same terms and are in step, and for a hash that no transaction has yet: a call of the
    escrow that is offered to a wallet does what it offers exactly if it comes before the visit
    time (a cancellation) or not before it (a confirmation), and the way is open for it. -/
theorem buttons_honest_iff (S : Setup) (s₀ s : State) (as : List Action) (h₀ : FreshSystem S s₀)
    (hrun : (machine S).exec s₀ as = some s) (id : String) (row : BookingRow)
    (hrow : s.db.bookings.lookup id = some row) (n : UInt64)
    (hid : idText n = row.onChainBookingId)
    (hagree : ∀ b, s.chain.ledger.escrow.booking? n = some b → agreesWithRow b row = true)
    (hstep : InStep row.status ((s.chain.ledger.escrow.booking? n).map Booking.state))
    (wallet : Address) (hash : String) (hhash : isTransactionHash hash = true)
    (hnew : ∀ t ∈ s.chain.transactions, t.hash ≠ hash)
    (acc : Address → Address → Address → Int → Bool) (limit : Nat) (action : BookingAction)
    (haction : action ∈ availableActions (Api.Workflow.load s.db row) (some wallet))
    (x : EscrowAction) (hx : action.run id n wallet hash = some x) :
    Honest S limit s id wallet hash acc x ↔ ∃ b, s.chain.ledger.escrow.booking? n = some b ∧
      action.InTime s.chain.ledger.timestamp b.visitTime ∧ Open S limit s n b wallet hash acc := by
  have h := backed_of_exec h₀ hrun
  have hoffer := offered_cases haction hx
  have hstatus : row.status = .funded ∨ row.status = .checkedIn :=
    hoffer.imp (fun hc => hc.2.1) fun hc => hc.2.1
  obtain ⟨b, hb, hfunded⟩ := funded_of_inStep hstep hstatus
  have hterms := hagree b hb
  have hiff : Honest S limit s id wallet hash acc x ↔
      action.InTime s.chain.ledger.timestamp b.visitTime ∧ Open S limit s n b wallet hash acc := by
    rcases hoffer with ⟨rfl, hs, rfl⟩ | ⟨rfl, hs, rfl⟩
    · cases hx
      obtain ⟨check, event, hsettles⟩ := settles_cancel h hrow hb hfunded hterms hhash acc hs
      exact honest_iff_open h hrow hid hb hfunded hstatus hhash hnew hsettles limit
    · cases hx
      obtain ⟨check, event, hsettles⟩ := settles_confirm h hrow hb hfunded hterms hhash acc hs
      exact honest_iff_open h hrow hid hb hfunded hstatus hhash hnew hsettles limit
  rw [hiff, hb]
  constructor
  · intro hopen
    exact ⟨b, rfl, hopen⟩
  · rintro ⟨b', hb', hopen⟩
    obtain rfl := Option.some.inj hb'
    exact hopen

/-- The deposit is in, at the API and on chain. -/
def fundedBoth : List Action := setUpEscrow :: bookBoth ++ fundBoth

theorem buttons_honest_funded : ∃ s row x, (machine sampleSetup).exec sampleStart fundedBoth = some s ∧
    s.db.bookings.lookup "3b241101-e2bb-4255-8caf-4136c566a962" = some row ∧
    BookingAction.cancel ∈ availableActions (Api.Workflow.load s.db row) (some "renter") ∧
    BookingAction.cancel.run "3b241101-e2bb-4255-8caf-4136c566a962" 4261549847195894357 "renter"
      "369d8e27270351b658b102785616797dab62b659058ca2494872b6bd0181aca4" = some x ∧
    Honest sampleSetup 100 s "3b241101-e2bb-4255-8caf-4136c566a962" "renter"
      "369d8e27270351b658b102785616797dab62b659058ca2494872b6bd0181aca4" (fun _ _ _ _ => true) x := by
  obtain ⟨s, hrun, row, hrow, b, hb, ⟨hid, hagree, hstatus, hstate, hoffer⟩, htime, hinst, e, he,
      hlive, hnew, hpage⟩ :
      ∃ s ∈ (machine sampleSetup).exec sampleStart fundedBoth,
      ∃ row ∈ s.db.bookings.lookup "3b241101-e2bb-4255-8caf-4136c566a962",
      ∃ b ∈ s.chain.ledger.escrow.booking? 4261549847195894357,
      (idText 4261549847195894357 = row.onChainBookingId ∧ agreesWithRow b row = true ∧
        row.status = .funded ∧ b.state = .funded ∧
        BookingAction.cancel ∈ availableActions (Api.Workflow.load s.db row) (some "renter")) ∧
      s.chain.ledger.timestamp < b.visitTime ∧
      s.chain.ledger.sequence ≤ s.chain.ledger.escrow.instanceLiveUntil ∧
      ∃ e ∈ s.chain.ledger.escrow.bookings.lookup 4261549847195894357,
      s.chain.ledger.sequence ≤ e.liveUntil ∧
      (∀ t ∈ s.chain.transactions,
        t.hash ≠ "369d8e27270351b658b102785616797dab62b659058ca2494872b6bd0181aca4") ∧
      (s.chain.eventInfos s.chain.ledger.sequence).length < 100 := by decide +kernel
  have hinStep : InStep row.status
      ((s.chain.ledger.escrow.booking? 4261549847195894357).map Booking.state) := by
    rw [hstatus, hb, Option.map_some, hstate]
    trivial
  refine ⟨s, row, _, hrun, hrow, hoffer, rfl, ?_⟩
  refine (buttons_honest_iff sampleSetup sampleStart s fundedBoth fresh_sampleStart hrun _ row hrow _ hid
    (fun x hx => Option.some.inj (hb.symm.trans hx) ▸ hagree) hinStep "renter" _ (by decide) hnew
    (fun _ _ _ _ => true) 100 .cancel hoffer _ rfl).mpr ⟨b, hb, htime, by decide, ⟨⟨hinst, ?_⟩, ?_⟩, hpage⟩
  · intro x hx
    obtain rfl := Option.some.inj (he.symm.trans hx)
    exact hlive
  · intro a ha
    rfl

/-- At the second of the visit the renter is still offered a cancellation. -/
theorem late_cancel_dishonest : ∃ s row b x,
    (machine sampleSetup).exec sampleStart (fundedBoth ++ [.chain (.close 1893492000 9)]) = some s ∧
    s.db.bookings.lookup "3b241101-e2bb-4255-8caf-4136c566a962" = some row ∧
    s.chain.ledger.escrow.booking? 4261549847195894357 = some b ∧
    idText 4261549847195894357 = row.onChainBookingId ∧ agreesWithRow b row = true ∧
    InStep row.status (some b.state) ∧
    BookingAction.cancel ∈ availableActions (Api.Workflow.load s.db row) (some "renter") ∧
    BookingAction.cancel.run "3b241101-e2bb-4255-8caf-4136c566a962" 4261549847195894357 "renter"
      "369d8e27270351b658b102785616797dab62b659058ca2494872b6bd0181aca4" = some x ∧
    (∀ t ∈ s.chain.transactions,
      t.hash ≠ "369d8e27270351b658b102785616797dab62b659058ca2494872b6bd0181aca4") ∧
    ¬ Honest sampleSetup 100 s "3b241101-e2bb-4255-8caf-4136c566a962" "renter"
      "369d8e27270351b658b102785616797dab62b659058ca2494872b6bd0181aca4" (fun _ _ _ _ => true) x := by
  obtain ⟨s, hrun, row, hrow, b, hb, hid, hagree, hstatus, hstate, hoffer, htime, hnew⟩ :
      ∃ s ∈ (machine sampleSetup).exec sampleStart (fundedBoth ++ [.chain (.close 1893492000 9)]),
      ∃ row ∈ s.db.bookings.lookup "3b241101-e2bb-4255-8caf-4136c566a962",
      ∃ b ∈ s.chain.ledger.escrow.booking? 4261549847195894357,
      idText 4261549847195894357 = row.onChainBookingId ∧ agreesWithRow b row = true ∧
      row.status = .funded ∧ b.state = .funded ∧
      BookingAction.cancel ∈ availableActions (Api.Workflow.load s.db row) (some "renter") ∧
      ¬ s.chain.ledger.timestamp < b.visitTime ∧
      ∀ t ∈ s.chain.transactions,
        t.hash ≠ "369d8e27270351b658b102785616797dab62b659058ca2494872b6bd0181aca4" := by
    decide +kernel
  have h := backed_of_exec fresh_sampleStart hrun
  refine ⟨s, row, b, _, hrun, hrow, hb, hid, hagree, ?_, hoffer, rfl, hnew, ?_⟩
  · rw [hstatus, hstate]
    trivial
  · rintro ⟨⟨σ, hσ⟩, -⟩
    exact htime (Contract.payable_of_cancel h.logged.chronicled.recorded.solvent.keyed hb hstate hσ).2

end PovDeposit.Joint
