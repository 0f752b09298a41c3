/-
  What a settled row stands for on chain.

  `told_of_shown` goes from one event of the log to the booking it is about. A `deposit_refunded`
  event alone says little: the contract publishes it also for a booking that was never funded.
  But a row is `REFUNDED` only after it was `FUNDED`, so it rests on two events, and the one
  story with both of them is that of a deposit that came in and went out again.
-/
import PovDeposit.Joint.System

namespace PovDeposit.Joint

open PovDeposit.Lib
open PovDeposit.Contract (Booking ContractEvent Ledger LoggedEvent Chronicled Story Address
  eventsOf transfersOf ledgerMachine)
open PovDeposit.Api (BookingRow BookingStatus path)

/-- The events about a booking are told apart by their names. -/
theorem event_of_name {b : Booking} {ev ev' : ContractEvent} (hev : ev ∈ b.events)
    (hev' : ev' ∈ b.events) (hname : eventName ev = eventName ev') : ev = ev' := by
  have hnames : (b.events.map eventName).Nodup := by
    show ["booking_created", "booking_funded", "deposit_refunded", "visit_confirmed"].Nodup
    decide
  exact List.inj_on_of_nodup_map hnames hev hev' hname

/-- An event of the log, read as an event of the booking it is about. -/
theorem told_of_shown {contract : Address} {l : Ledger} (h : Chronicled contract l)
    (ev : Booking → ContractEvent) (hev : ∀ b, ev b ∈ b.events) {name id hash : String}
    (hname : ∀ b, eventName (ev b) = name) (hshown : Shown l.escrow.events name id hash) :
    ∃ n b a e, idText n = id ∧ l.escrow.booking? n = some b ∧ l.escrow.asset = some a ∧
      e ∈ eventsOf n l.escrow.events ∧ e.event = ev b ∧ e.txHash = hash := by
  obtain ⟨e, he, hen, hid, hhash⟩ := hshown
  obtain ⟨b, a, hb, ha, hmem⟩ := h.booking_of_event he rfl
  have hstory := h.told _ b a hb ha
  have hsub : e.event ∈ b.events := hstory.subset (List.mem_map_of_mem hmem)
  exact ⟨_, b, a, e, hid, hb, ha, hmem, event_of_name hsub (hev b) (hen.trans (hname b).symm), hhash⟩

/-! ## The events a row rests on -/

section Rows

variable {S : Setup} {s : State} (h : Backed S s) {id : String} {row : BookingRow}
  (hrow : s.db.bookings.lookup id = some row)
include h hrow

theorem Backed.shown {status : BookingStatus} {name : String} (hstatus : status ∈ path row.status)
    (hname : evidence status = some name) : ∃ hash, Shown s.log name row.onChainBookingId hash := by
  obtain ⟨hash, he⟩ := h.rows id row hrow status hstatus
  obtain ⟨row', hrow', hshown⟩ := he name hname
  obtain rfl : row = row' := by simpa [hrow] using hrow'
  exact ⟨hash, hshown⟩

/-- Where a row has a status that rests on an event, the event is in the story of the one
    booking with the row's on-chain id. -/
theorem Backed.told (ev : Booking → ContractEvent) (hev : ∀ b, ev b ∈ b.events)
    {status : BookingStatus} (hstatus : status ∈ path row.status)
    (hname : ∀ b, evidence status = some (eventName (ev b))) {n : UInt64} {b : Booking}
    (hid : idText n = row.onChainBookingId)
    (hb : s.chain.ledger.escrow.booking? n = some b) :
    ev b ∈ (eventsOf n s.log).map LoggedEvent.event := by
  obtain ⟨hash, hshown⟩ := h.shown hrow hstatus (hname b)
  have hsame : ∀ b', eventName (ev b') = eventName (ev b) := fun b' =>
    Option.some.inj ((hname b').symm.trans (hname b))
  obtain ⟨m, b', a, e, hid', hb', -, he, hevent, -⟩ :=
    told_of_shown h.logged.chronicled ev hev hsame hshown
  obtain rfl : m = n := idText_inj (hid'.trans hid.symm)
  obtain rfl : b' = b := Option.some.inj (hb'.symm.trans hb)
  exact hevent ▸ List.mem_map_of_mem he

/-- A row that is past its funding has a booking on chain, with a funding event. -/
theorem Backed.funded (hstatus : .funded ∈ path row.status) :
    ∃ n b a, idText n = row.onChainBookingId ∧ s.chain.ledger.escrow.booking? n = some b ∧
      s.chain.ledger.escrow.asset = some a ∧ s.chain.ledger.HasFunded n ∧
      Story S.deployment.contract a b b.state ((eventsOf n s.log).map LoggedEvent.event)
        (transfersOf n s.chain.ledger.receipts) := by
  obtain ⟨hash, hshown⟩ := h.shown hrow hstatus rfl
  obtain ⟨n, b, a, e, hid, hb, ha, he, hevent, -⟩ :=
    told_of_shown h.logged.chronicled Booking.funded
      (fun b => by simp [Booking.events]) (fun b => rfl) hshown
  have hkey := h.logged.chronicled.recorded.solvent.keyed.bookingId hb
  refine ⟨n, b, a, hid, hb, ha, ⟨e, (List.mem_filter.mp he).1, b.depositAmount, ?_⟩,
    h.logged.chronicled.told n b a hb ha⟩
  rw [hevent, Booking.funded, hkey]

end Rows

/-! ## Settlement -/

/-- A run of the system is a run of the ledger. -/
theorem ledger_of_exec {S : Setup} {s s' : State} {as : List Action}
    (hrun : (machine S).exec s as = some s') :
    (ledgerMachine S.deployment).exec s.chain.ledger (as.flatMap Action.calls) =
      some s'.chain.ledger := by
  refine (machine S).exec_flatMap (f := fun s => s.chain.ledger) (fun s a s' hstep => ?_) hrun
  cases a with
  | chain a =>
    obtain ⟨chain, hchain, rfl⟩ := Option.map_eq_some_iff.mp hstep
    exact ledger_of_step hchain
  | api a =>
    have hapi : (if s.truthful a then
        (Api.step S.config s.server a).map fun server => { s with server := server } else none) =
        some s' := hstep
    simp only [Option.ite_none_right_eq_some, Option.map_eq_some_iff] at hapi
    obtain ⟨-, server, -, rfl⟩ := hapi
    rfl

/-- **Database settlement implies on-chain settlement.** After any run of the system, for every
    row: if it is `REFUNDED`, the booking with its on-chain id is `Refunded`, was `Funded` at
    some point of the run, and its only token movements are the deposit and its way back; if it
    is `COMPLETED`, the booking is `Released`. -/
theorem database_settlement (S : Setup) (s₀ s : State) (as : List Action) (h₀ : FreshSystem S s₀)
    (hrun : (machine S).exec s₀ as = some s) (id : String) (row : BookingRow)
    (hrow : s.db.bookings.lookup id = some row) :
    (ledgerMachine S.deployment).exec s₀.chain.ledger (as.flatMap Action.calls) =
      some s.chain.ledger ∧
    (row.status = .refunded → ∃ n b a, idText n = row.onChainBookingId ∧
      s.chain.ledger.escrow.booking? n = some b ∧ s.chain.ledger.escrow.asset = some a ∧
      b.state = .refunded ∧
      (∃ t ∈ (ledgerMachine S.deployment).visited s₀.chain.ledger (as.flatMap Action.calls),
        t.Holds n) ∧
      transfersOf n s.chain.ledger.receipts =
        [b.deposit a S.deployment.contract, b.payout a S.deployment.contract]) ∧
    (row.status = .completed → ∃ n b, idText n = row.onChainBookingId ∧
      s.chain.ledger.escrow.booking? n = some b ∧ b.state = .released) := by
  have h := backed_of_exec h₀ hrun
  have hledger := ledger_of_exec hrun
  refine ⟨hledger, fun hstatus => ?_, fun hstatus => ?_⟩
  · have hfunded : BookingStatus.funded ∈ path row.status := by rw [hstatus]; decide
    have hrefunded : BookingStatus.refunded ∈ path row.status := by rw [hstatus]; decide
    obtain ⟨n, b, a, hid, hb, ha, hin, hstory⟩ := h.funded hrow hfunded
    have hf := h.told hrow Booking.funded (fun b => by simp [Booking.events]) hfunded
      (fun b => rfl) hid hb
    have hr := h.told hrow Booking.refunded (fun b => by simp [Booking.events]) hrefunded
      (fun b => rfl) hid hb
    obtain ⟨hstate, htransfers⟩ := hstory.repaid hf hr
    exact ⟨n, b, a, hid, hb, ha, hstate, Contract.funded_in_run h₀.chain.ledger hledger hin,
      htransfers⟩
  · have hfunded : BookingStatus.funded ∈ path row.status := by rw [hstatus]; decide
    have hcompleted : BookingStatus.completed ∈ path row.status := by rw [hstatus]; decide
    obtain ⟨n, b, a, hid, hb, ha, hin, hstory⟩ := h.funded hrow hfunded
    have hc := h.told hrow Booking.confirmed (fun b => by simp [Booking.events]) hcompleted
      (fun b => rfl) hid hb
    exact ⟨n, b, hid, hb, (hstory.confirmed hc).1⟩

/-- A booking that is funded and cancelled, on both sides. -/
def refundedRun : List Action :=
  setUpEscrow :: bookBoth ++ fundBoth ++ cancelOnChain :: cancelRequest.map .api

theorem database_settlement_refunded : ∃ s row n b,
    (machine sampleSetup).exec sampleStart refundedRun = some s ∧
      s.db.bookings.lookup "3b241101-e2bb-4255-8caf-4136c566a962" = some row ∧
      row.status = .refunded ∧ idText n = "4261549847195894357" ∧
      s.chain.ledger.escrow.booking? n = some b ∧ b.state = .refunded := by
  obtain ⟨s, hrun, row, hrow, hstatus, hid⟩ :
      ∃ s ∈ (machine sampleSetup).exec sampleStart refundedRun,
      ∃ row ∈ s.db.bookings.lookup "3b241101-e2bb-4255-8caf-4136c566a962",
        row.status = .refunded ∧ row.onChainBookingId = "4261549847195894357" := by decide +kernel
  have h := database_settlement sampleSetup sampleStart s refundedRun fresh_sampleStart hrun _ row hrow
  obtain ⟨n, b, a, hn, hb, -, hstate, -⟩ := h.2.1 hstatus
  exact ⟨s, row, n, b, hrun, hrow, hstatus, hn.trans hid, hb, hstate⟩

end PovDeposit.Joint
