/-
  One booking seen as a whole: its row at the API and its deposit in the escrow.

  Contract and API share nothing but the events that the API reads. A `Deal` is what the two
  are for together: a row and a deposit, each with its own moves, and with the deposit that a
  move of the row must find. The system refines it: for the UUID of every booking, a run of
  the system is a run of its deal, whatever else goes on in between (`deal_refined`). So a row
  and a deposit are only found together where the moves of the deal bring them together, and
  each of these pairs does come about (`deal_reached_iff`).
-/
import PovDeposit.Joint.Reconciliation

namespace PovDeposit.Joint

open PovDeposit.Lib
open PovDeposit.Api (BookingRow BookingStatus path onChainBookingId)
open PovDeposit.Contract (BookingState ContractEvent LoggedEvent Chronicled Story Address Ledger
  eventsOf)

/-! ## The abstract booking -/

/-- What has become of a deposit. -/
inductive Deposit where
  /-- nothing on chain -/
  | absent
  | created
  /-- cancelled before it was funded -/
  | withdrawn
  | held
  | repaid
  | released
  deriving DecidableEq, Repr

/-- The deposit came in, whatever happened to it then. -/
def Deposit.funded : Deposit → Bool
  | .held | .repaid | .released => true
  | .absent | .created | .withdrawn => false

/-- The state of the booking on chain. -/
def Deposit.state : Deposit → Option BookingState
  | .absent => none
  | .created => some .created
  | .withdrawn => some .refunded
  | .held => some .funded
  | .repaid => some .refunded
  | .released => some .released

def Deposit.step : Deposit → ContractEvent → Option Deposit
  | .absent, .bookingCreated _ _ _ _ => some .created
  | .created, .bookingFunded _ _ => some .held
  | .created, .depositRefunded _ _ => some .withdrawn
  | .held, .depositRefunded _ _ => some .repaid
  | .held, .visitConfirmed _ _ => some .released
  | _, _ => none

def depositMachine : Machine Deposit ContractEvent where
  init := (· = .absent)
  step := Deposit.step

structure Deal where
  /-- the status of the row, if there is one -/
  row : Option BookingStatus
  deposit : Deposit
  deriving DecidableEq, Repr

/-- The moves of a row, with the deposit that they need. -/
def Deal.mayBecome (d : Deal) : BookingStatus → Bool
  | .pendingFunding => d.row = none
  | .funded => d.row = some .pendingFunding && d.deposit.funded
  | .checkedIn => d.row = some .funded
  | .refunded => d.row = some .funded && d.deposit = .repaid
  | .completed => d.row = some .checkedIn && d.deposit = .released
  | _ => false

/-- An event on chain, or a new status of the row. -/
inductive Move where
  | event (e : ContractEvent)
  | row (status : BookingStatus)
  deriving DecidableEq, Repr

def Deal.step (d : Deal) : Move → Option Deal
  | .event e => (d.deposit.step e).map fun deposit => { d with deposit := deposit }
  | .row status => if d.mayBecome status then some { d with row := some status } else none

def Deal.start : Deal := ⟨none, .absent⟩

def dealMachine : Machine Deal Move where
  init := (· = .start)
  step := Deal.step

/-! ## The booking of a UUID -/

/-- The deposit that the events about booking `n` stand for. -/
def depositOf (n : UInt64) (log : List LoggedEvent) : Option Deposit :=
  depositMachine.exec .absent ((eventsOf n log).map LoggedEvent.event)

/-- The deal of the row `id` and the booking `n`. -/
def dealOf (id : String) (n : UInt64) (s : State) : Option Deal :=
  (depositOf n s.log).map fun deposit => ⟨(s.db.bookings.lookup id).map BookingRow.status, deposit⟩

theorem dealOf_eq_some {id : String} {n : UInt64} {s : State} {d : Deal} :
    dealOf id n s = some d ↔ depositOf n s.log = some d.deposit ∧
      (s.db.bookings.lookup id).map BookingRow.status = d.row := by
  unfold dealOf
  rw [Option.map_eq_some_iff]
  constructor
  · rintro ⟨deposit, hdeposit, rfl⟩
    exact ⟨hdeposit, rfl⟩
  · rintro ⟨hdeposit, hrow⟩
    exact ⟨d.deposit, hdeposit, by rw [hrow]⟩

theorem event_exec (row : Option BookingStatus) {deposit deposit' : Deposit}
    {es : List ContractEvent} (h : depositMachine.exec deposit es = some deposit') :
    dealMachine.exec ⟨row, deposit⟩ (es.map .event) = some ⟨row, deposit'⟩ := by
  induction es generalizing deposit with
  | nil =>
    cases h
    rfl
  | cons e es ih =>
    obtain ⟨t, ht, hrest⟩ := depositMachine.exec_cons_eq_some.mp h
    refine dealMachine.exec_cons_eq_some.mpr ⟨⟨row, t⟩, ?_, ih hrest⟩
    show (deposit.step e).map _ = _
    rw [show deposit.step e = some t from ht]
    rfl

/-! ## What the log says of a deposit -/

/-- The events about booking `n` say that its deposit is `d`, and so does its state. -/
structure Tells (l : Ledger) (n : UInt64) (d : Deposit) : Prop where
  log : depositOf n l.escrow.events = some d
  state : (l.escrow.booking? n).map Contract.Booking.state = d.state
  funded : (∃ e ∈ eventsOf n l.escrow.events, eventName e.event = "booking_funded") ↔
    d.funded = true
  repaid : d.funded = true →
    ((∃ e ∈ eventsOf n l.escrow.events, eventName e.event = "deposit_refunded") ↔ d = .repaid)
  released : (∃ e ∈ eventsOf n l.escrow.events, eventName e.event = "visit_confirmed") ↔
    d = .released

theorem tells_of_story {contract a : Address} {b : Contract.Booking} {state : BookingState}
    {es : List ContractEvent} {ts : List Contract.Transfer} (h : Story contract a b state es ts) :
    ∃ d : Deposit, depositMachine.exec .absent es = some d ∧ some state = d.state ∧
      ("booking_funded" ∈ es.map eventName ↔ d.funded = true) ∧
      (d.funded = true → ("deposit_refunded" ∈ es.map eventName ↔ d = .repaid)) ∧
      ("visit_confirmed" ∈ es.map eventName ↔ d = .released) := by
  cases h with
  | created =>
    refine ⟨.created, rfl, rfl, ?_⟩
    show ("booking_funded" ∈ ["booking_created"] ↔ _) ∧
      (_ → ("deposit_refunded" ∈ ["booking_created"] ↔ _)) ∧
      ("visit_confirmed" ∈ ["booking_created"] ↔ _)
    decide
  | funded =>
    refine ⟨.held, rfl, rfl, ?_⟩
    show ("booking_funded" ∈ ["booking_created", "booking_funded"] ↔ _) ∧
      (_ → ("deposit_refunded" ∈ ["booking_created", "booking_funded"] ↔ _)) ∧
      ("visit_confirmed" ∈ ["booking_created", "booking_funded"] ↔ _)
    decide
  | withdrawn =>
    refine ⟨.withdrawn, rfl, rfl, ?_⟩
    show ("booking_funded" ∈ ["booking_created", "deposit_refunded"] ↔ _) ∧
      (_ → ("deposit_refunded" ∈ ["booking_created", "deposit_refunded"] ↔ _)) ∧
      ("visit_confirmed" ∈ ["booking_created", "deposit_refunded"] ↔ _)
    decide
  | refunded =>
    refine ⟨.repaid, rfl, rfl, ?_⟩
    show ("booking_funded" ∈ ["booking_created", "booking_funded", "deposit_refunded"] ↔ _) ∧
      (_ → ("deposit_refunded" ∈ ["booking_created", "booking_funded", "deposit_refunded"] ↔ _)) ∧
      ("visit_confirmed" ∈ ["booking_created", "booking_funded", "deposit_refunded"] ↔ _)
    decide
  | released =>
    refine ⟨.released, rfl, rfl, ?_⟩
    show ("booking_funded" ∈ ["booking_created", "booking_funded", "visit_confirmed"] ↔ _) ∧
      (_ → ("deposit_refunded" ∈ ["booking_created", "booking_funded", "visit_confirmed"] ↔ _)) ∧
      ("visit_confirmed" ∈ ["booking_created", "booking_funded", "visit_confirmed"] ↔ _)
    decide

theorem Logged.tells {d : Contract.Deployment} {c : Chain} (h : Logged d c) (n : UInt64) :
    ∃ deposit, Tells c.ledger n deposit := by
  -- the names that are asked for, among the events without their places in the log
  have hnames : ∀ name, (∃ e ∈ eventsOf n c.ledger.escrow.events, eventName e.event = name) ↔
      name ∈ ((eventsOf n c.ledger.escrow.events).map LoggedEvent.event).map eventName := by
    intro name
    rw [List.map_map, List.mem_map]
    rfl
  cases hb : c.ledger.escrow.booking? n with
  | none =>
    have hnone := h.chronicled.untold n hb
    refine ⟨.absent, by rw [depositOf, hnone]; rfl, by rw [hb]; rfl, ?_, ?_, ?_⟩ <;>
      simp [hnone, Deposit.funded]
  | some b =>
    obtain ⟨a, ha⟩ := h.chronicled.recorded.solvent.asset_set n b hb
    obtain ⟨deposit, hlog, hstate, hfunded, hrepaid, hreleased⟩ :=
      tells_of_story (h.chronicled.told n b a hb ha)
    exact ⟨deposit, hlog, by rw [hb]; exact hstate, (hnames _).trans hfunded,
      fun hd => (hnames _).trans (hrepaid hd), (hnames _).trans hreleased⟩

/-- Two readings of a log that only grew are the ends of a run. -/
theorem deposit_exec {n : UInt64} {log log' : List LoggedEvent} (hlog : log <+: log')
    {d d' : Deposit} (h : depositOf n log = some d) (h' : depositOf n log' = some d') :
    ∃ es, depositMachine.exec d es = some d' := by
  obtain ⟨new, rfl⟩ := hlog
  refine ⟨(eventsOf n new).map LoggedEvent.event, ?_⟩
  have hsplit : eventsOf n (log ++ new) = eventsOf n log ++ eventsOf n new := List.filter_append _ _
  unfold depositOf at h h'
  rw [hsplit, List.map_append, depositMachine.exec_append, h] at h'
  exact h'

/-! ## The moves of the row -/

/-- Every row has the on-chain id of its UUID. -/
def Labelled (s : State) : Prop :=
  ∀ id row, s.db.bookings.lookup id = some row → onChainBookingId id = some row.onChainBookingId

/-- What is shown for a row is what the events about its booking are. -/
theorem event_shown {s : State} (hrows : Labelled s) {id : String} {n : UInt64}
    (hid : onChainBookingId id = some (idText n)) {row : BookingRow}
    (hrow : s.db.bookings.lookup id = some row) {name : String} :
    (∃ e ∈ eventsOf n s.log, eventName e.event = name) ↔
      ∃ hash, Shown s.log name row.onChainBookingId hash := by
  have hlabel : row.onChainBookingId = idText n :=
    Option.some.inj ((hrows id row hrow).symm.trans hid)
  rw [hlabel]
  constructor
  · rintro ⟨e, he, hname⟩
    obtain ⟨hlog, hsame⟩ := List.mem_filter.mp he
    exact ⟨e.txHash, e, hlog, hname, congrArg idText (of_decide_eq_true hsame), rfl⟩
  · rintro ⟨hash, e, he, hname, hbooking, -⟩
    exact ⟨e, List.mem_filter.mpr ⟨he, decide_eq_true (idText_inj hbooking)⟩, hname⟩

section Rows

variable {S : Setup} {s : State} (h : Backed S s) (hrows : Labelled s) {id : String} {n : UInt64}
  (hid : onChainBookingId id = some (idText n)) {d : Deal} (hd : dealOf id n s = some d)
include h hrows hid hd

/-- A call that may write the row makes a move of the deal. -/
theorem Backed.mayBecome {row : BookingRow} (hrow : s.db.bookings.lookup id = some row)
    {c : Api.Workflow.Call} (hc : Grounded s.log s.db c) (hcall : c.op.id = id)
    (hadmits : c.op.admits row = true) : d.mayBecome c.op.target = true := by
  obtain ⟨deposit, htells⟩ := h.logged.tells n
  obtain ⟨hlog, hstatus⟩ := dealOf_eq_some.mp hd
  obtain rfl : deposit = d.deposit := Option.some.inj (htells.log.symm.trans hlog)
  have hsource : row.status = c.op.source := (Api.Workflow.admits_iff.mp hadmits).1
  rw [hrow, Option.map_some, hsource] at hstatus
  -- the event that the call rests on
  have hevent : ∀ name, evidence c.op.target = some name →
      ∃ e ∈ eventsOf n s.log, eventName e.event = name := by
    intro name hname
    obtain ⟨x, hx, hshown⟩ := hc.evident name hname
    rw [hcall] at hx
    exact (event_shown hrows hid hx).mpr ⟨_, hshown⟩
  cases c with
  | fund id' hash v =>
    have hfunded := htells.funded.mp (hevent _ rfl)
    simp [Deal.mayBecome, Api.Workflow.Call.op, Api.Workflow.fund, ← hstatus, hfunded]
  | checkIn id' actor hash =>
    simp [Deal.mayBecome, Api.Workflow.Call.op, Api.Workflow.checkIn, ← hstatus]
  | refund id' actor hash v =>
    have hpast : BookingStatus.funded ∈ path row.status := by
      rw [hsource]
      exact Api.mem_path_self _
    have hfunded := htells.funded.mp ((event_shown hrows hid hrow).mpr (h.shown hrow hpast rfl))
    have hrepaid := (htells.repaid hfunded).mp (hevent _ rfl)
    simp [Deal.mayBecome, Api.Workflow.Call.op, Api.Workflow.refund, ← hstatus, hrepaid]
  | confirm id' actor hash =>
    have hreleased := htells.released.mp (hevent _ rfl)
    simp [Deal.mayBecome, Api.Workflow.Call.op, Api.Workflow.confirm, ← hstatus, hreleased]

/-- A step of the API leaves the row's status as it is, or makes a move of the deal. -/
theorem Backed.row_move {a : Api.Action} {server : Api.Server}
    (hstep : Api.step S.config s.server a = some server) :
    (server.db.bookings.lookup id).map BookingRow.status = d.row ∨
      ∃ status, d.mayBecome status = true ∧
        (server.db.bookings.lookup id).map BookingRow.status = some status := by
  obtain ⟨-, hstatus⟩ := dealOf_eq_some.mp hd
  cases hrow : s.db.bookings.lookup id with
  | none =>
    rw [hrow, Option.map_none] at hstatus
    cases hnew : server.db.bookings.lookup id with
    | none => exact .inl hstatus
    | some row' =>
      rcases Api.row_of_step h.paid.coherent hstep hnew with ⟨row, hold, -⟩ |
        ⟨_, _, _, _, _, -, -, -, hcreated⟩
      · rw [State.db, hold] at hrow
        cases hrow
      · refine .inr ⟨.pendingFunding, by simp [Deal.mayBecome, ← hstatus], ?_⟩
        rw [Option.map_some, hcreated.status]
  | some row =>
    rcases Api.flow_of_step hstep with hsame | ⟨fa, hfa⟩
    · rw [Api.Server.db, hsame]
      exact .inl hstatus
    · obtain ⟨row', hrow', hcases⟩ := Api.Workflow.row_step h.paid.coherent hfa hrow
      rw [Api.Server.db, hrow', Option.map_some]
      rcases hcases with rfl | ⟨i, p, -, hp, hcall, hadmits, rfl⟩
      · rw [hrow, Option.map_some] at hstatus
        exact .inl hstatus
      · exact .inr ⟨p.op.target, h.mayBecome hrows hid hd hrow (h.calls i p hp) hcall hadmits, rfl⟩

end Rows

theorem labelled_step {S : Setup} {s s' : State} {a : Action} (h : Backed S s) (hrows : Labelled s)
    (hstep : step S s a = some s') : Labelled s' := by
  cases a with
  | chain a =>
    obtain ⟨chain, -, rfl⟩ := Option.map_eq_some_iff.mp hstep
    exact hrows
  | api a =>
    simp only [step, Option.ite_none_right_eq_some, Option.map_eq_some_iff] at hstep
    obtain ⟨-, server, hserver, rfl⟩ := hstep
    intro id row' hrow'
    rcases Api.row_of_step h.paid.coherent hserver hrow' with ⟨row, hrow, hterms⟩ |
      ⟨_, _, uuid, _, _, -, -, -, hcreated⟩
    · rw [hterms.onChainBookingId]
      exact hrows id row hrow
    · have hkeyed := (Api.coherent_of_step h.paid.coherent hserver).keyed id row' hrow'
      rw [← hkeyed, hcreated.id]
      exact hcreated.onChain

/-! ## The refinement -/

theorem deal_step {S : Setup} {s s' : State} {a : Action} (h : Backed S s) (hrows : Labelled s)
    (hstep : step S s a = some s') {id : String} {n : UInt64}
    (hid : onChainBookingId id = some (idText n)) {d : Deal} (hd : dealOf id n s = some d) :
    ∃ ms d', dealMachine.exec d ms = some d' ∧ dealOf id n s' = some d' := by
  obtain ⟨hlog, hstatus⟩ := dealOf_eq_some.mp hd
  cases a with
  | chain a =>
    obtain ⟨chain, hchain, rfl⟩ := Option.map_eq_some_iff.mp hstep
    obtain ⟨hlogged, hprefix⟩ := logged_step h.logged hchain
    obtain ⟨deposit, htells⟩ := hlogged.tells n
    obtain ⟨es, hes⟩ := deposit_exec hprefix hlog htells.log
    exact ⟨_, ⟨d.row, deposit⟩, event_exec d.row hes, dealOf_eq_some.mpr ⟨htells.log, hstatus⟩⟩
  | api a =>
    simp only [step, Option.ite_none_right_eq_some, Option.map_eq_some_iff] at hstep
    obtain ⟨-, server, hserver, rfl⟩ := hstep
    rcases h.row_move hrows hid hd hserver with hsame | ⟨status, hmay, hnew⟩
    · exact ⟨[], d, rfl, dealOf_eq_some.mpr ⟨hlog, hsame⟩⟩
    · refine ⟨[.row status], ⟨some status, d.deposit⟩, ?_, dealOf_eq_some.mpr ⟨hlog, hnew⟩⟩
      exact dealMachine.exec_single (if_pos hmay)

/-- From any state of a run, the rest of the run is a run of the deal. -/
theorem deal_exec {S : Setup} {s s' : State} {as : List Action} (h : Backed S s)
    (hrows : Labelled s) (hrun : (machine S).exec s as = some s') {id : String} {n : UInt64}
    (hid : onChainBookingId id = some (idText n)) {d : Deal} (hd : dealOf id n s = some d) :
    ∃ ms d', dealMachine.exec d ms = some d' ∧ dealOf id n s' = some d' := by
  refine (machine S).exec_relates (I := fun t => Backed S t ∧ Labelled t)
    (R := fun t t' => ∀ d, dealOf id n t = some d → ∃ ms d', dealMachine.exec d ms = some d' ∧
      dealOf id n t' = some d') (fun t a t' ht hstep => ?_) (fun t d hd => ⟨[], d, rfl, hd⟩) ?_
    (fun t a t' ht hstep d hd => deal_step ht.1 ht.2 hstep hid hd) hrun ⟨h, hrows⟩ d hd
  · exact ⟨backed_step t a t' ht.1 hstep, labelled_step ht.1 ht.2 hstep⟩
  · intro t u v htu huv d hd
    obtain ⟨ms, e, hms, he⟩ := htu d hd
    obtain ⟨ms', e', hms', he'⟩ := huv e he
    exact ⟨ms ++ ms', e', dealMachine.exec_trans hms hms', he'⟩

theorem lookup_of_fresh {S : Setup} {s₀ : State} (h₀ : FreshSystem S s₀) (id : String) :
    s₀.db.bookings.lookup id = none := by
  rw [State.db, Api.Server.db, h₀.server.flow.bookings, AList.lookup_empty]

theorem labelled_of_fresh {S : Setup} {s₀ : State} (h₀ : FreshSystem S s₀) : Labelled s₀ := by
  intro id row hrow
  rw [lookup_of_fresh h₀] at hrow
  cases hrow

theorem deal_of_fresh {S : Setup} {s₀ : State} (h₀ : FreshSystem S s₀) (id : String) (n : UInt64) :
    dealOf id n s₀ = some .start := by
  refine dealOf_eq_some.mpr ⟨?_, by rw [lookup_of_fresh h₀]; rfl⟩
  rw [depositOf, State.log, h₀.chain.ledger.events]
  rfl

theorem labelled_of_exec {S : Setup} {s₀ s : State} {as : List Action} (h₀ : FreshSystem S s₀)
    (hrun : (machine S).exec s₀ as = some s) : Backed S s ∧ Labelled s :=
  (machine S).exec_invariant (I := fun t => Backed S t ∧ Labelled t)
    (fun t a t' ht hstep => ⟨backed_step t a t' ht.1 hstep, labelled_step ht.1 ht.2 hstep⟩) hrun
    ⟨backed_of_fresh h₀, labelled_of_fresh h₀⟩

/-- **The system refines its deals.** After any run of the system, for every UUID whose digits
    are those of the `u64` id `n`: the row under the UUID and the events about booking `n` make
    up a deal that a run of the deal machine reaches, its deposit is in the state that the
    contract has stored, and whatever the system does next is again a run of the deal. -/
theorem deal_refined (S : Setup) (s₀ s : State) (as : List Action) (h₀ : FreshSystem S s₀)
    (hrun : (machine S).exec s₀ as = some s) (id : String) (n : UInt64)
    (hid : onChainBookingId id = some (idText n)) :
    ∃ ms d, dealMachine.exec .start ms = some d ∧ dealOf id n s = some d ∧
      (s.chain.ledger.escrow.booking? n).map Contract.Booking.state = d.deposit.state ∧
      ∀ bs t, (machine S).exec s bs = some t →
        ∃ ms' d', dealMachine.exec d ms' = some d' ∧ dealOf id n t = some d' := by
  obtain ⟨h, hrows⟩ := labelled_of_exec h₀ hrun
  obtain ⟨ms, d, hms, hd⟩ :=
    deal_exec (backed_of_fresh h₀) (labelled_of_fresh h₀) hrun hid (deal_of_fresh h₀ id n)
  obtain ⟨deposit, htells⟩ := h.logged.tells n
  obtain rfl : deposit = d.deposit :=
    Option.some.inj (htells.log.symm.trans (dealOf_eq_some.mp hd).1)
  exact ⟨ms, d, hms, hd, htells.state, fun bs t hbs => deal_exec h hrows hbs hid hd⟩

theorem deal_refined_refunded : ∃ ms d, dealMachine.exec .start ms = some d ∧
    d = ⟨some .refunded, .repaid⟩ := by
  obtain ⟨s, hrun, hd⟩ : ∃ s, (machine sampleSetup).exec sampleStart refundedRun = some s ∧
      dealOf "3b241101-e2bb-4255-8caf-4136c566a962" 4261549847195894357 s =
        some ⟨some .refunded, .repaid⟩ := ⟨_, rfl, by decide +kernel⟩
  obtain ⟨ms, d, hms, hd', -⟩ := deal_refined sampleSetup sampleStart s refundedRun
    fresh_sampleStart hrun "3b241101-e2bb-4255-8caf-4136c566a962" 4261549847195894357
    (by decide +kernel)
  exact ⟨ms, d, hms, Option.some.inj (hd'.symm.trans hd)⟩

/-! ## The pairs that come about -/

/-- A row past its funding has a deposit that came in, and a settled one its outcome. -/
def Deal.possible (d : Deal) : Bool :=
  match d.row with
  | none | some .pendingFunding => true
  | some .funded | some .checkedIn => d.deposit.funded
  | some .refunded => d.deposit = .repaid
  | some .completed => d.deposit = .released
  | _ => false

theorem possible_step (d : Deal) (m : Move) (d' : Deal) (h : d.possible = true)
    (hstep : d.step m = some d') : d'.possible = true := by
  obtain ⟨row, deposit⟩ := d
  cases m with
  | event e =>
    obtain ⟨deposit', hdeposit, rfl⟩ := Option.map_eq_some_iff.mp hstep
    -- a funded deposit stays one, and an outcome is final
    have hkeep : (deposit.funded = true → deposit'.funded = true) ∧ deposit ≠ .repaid ∧
        deposit ≠ .released := by
      cases deposit <;> cases e <;> cases hdeposit <;> decide
    cases row with
    | none => rfl
    | some status => cases status <;> simp_all [Deal.possible]
  | row status =>
    obtain ⟨hmay, heq⟩ := Option.ite_none_right_eq_some.mp hstep
    cases heq
    cases status <;> simp_all [Deal.possible, Deal.mayBecome]

/-- Nothing was paid at the API or issued by it, and no call was made. -/
structure Untouched (s : State) : Prop where
  payments : s.db.payments = []
  calls : s.server.flow.calls = []
  challenges : s.db.challenges = ∅

/-- A pending row can follow its deposit to any status that is possible with it. -/
theorem Backed.row_follows {S : Setup} {s : State} (h : Backed S s) (hrows : Labelled s)
    {id : String} {n : UInt64} (hid : onChainBookingId id = some (idText n)) {deposit : Deposit}
    (hd : dealOf id n s = some ⟨some .pendingFunding, deposit⟩) (huntouched : Untouched s)
    {row : BookingRow} (hrow : s.db.bookings.lookup id = some row) {nonce : String} {now : Int}
    (hnonce : FreshNonce S s id row.renter nonce now)
    (happart : ∀ hash, Shown s.log "booking_funded" row.onChainBookingId hash →
      ¬ Shown s.log "deposit_refunded" row.onChainBookingId hash)
    {status : BookingStatus} (hpossible : (⟨some status, deposit⟩ : Deal).possible = true) :
    ∃ t, Reaches S s id row status t := by
  obtain ⟨deposit', htells⟩ := h.logged.tells n
  obtain ⟨hlog, hstatus⟩ := dealOf_eq_some.mp hd
  obtain rfl : deposit' = deposit := Option.some.inj (htells.log.symm.trans hlog)
  rw [hrow, Option.map_some, Option.some.injEq] at hstatus
  have hfree := recordable_of_untold huntouched.payments huntouched.calls id row
  -- every run towards the status begins with the funding
  have hfirst : deposit'.funded = true → ∃ t row', Reaches S s id row .funded t ∧ Backed S t ∧
      t.db.bookings.lookup id = some row' ∧ row'.status = .funded ∧ row.SameTerms row' ∧
      t.log = s.log ∧ t.server.flow.rowLocked id = false ∧ t.db.challenges = s.db.challenges ∧
      ∀ name hash, Shown s.log name row.onChainBookingId hash →
        ¬ Shown s.log "booking_funded" row.onChainBookingId hash → Available t id hash := by
    intro hfunded
    obtain ⟨F, hF⟩ := (event_shown hrows hid hrow).mp (htells.funded.mpr hfunded)
    obtain ⟨t, hreach, hsettled⟩ := h.reach_funded hrow hstatus hF (hfree _ F hF)
    obtain ⟨row', hrow', hterms, hstatus'⟩ := hreach.stored
    refine ⟨t, row', hreach, hreach.backed h, hrow', hstatus', hterms,
      congrArg (fun c => c.ledger.escrow.events) hreach.chain, hsettled.unlocked,
      hsettled.challenges, fun name hash hshown hnot => ?_⟩
    exact hsettled.available hash (fun heq => hnot (heq ▸ hF)) (hfree name hash hshown)
  -- and goes on with the check-in, unless it is a refund
  have hsecond : deposit'.funded = true → ∃ t, Reaches S s id row .checkedIn t := by
    intro hfunded
    obtain ⟨t, row', hreach, ht, hrow', hs', hterms, -, hunlocked, hchallenges, -⟩ := hfirst hfunded
    have hnonce' : FreshNonce S t id row'.renter nonce now :=
      ⟨hterms.renter ▸ hnonce.1, hchallenges ▸ hnonce.2⟩
    obtain ⟨u, hlast⟩ := ht.reach_checkedIn hrow' hs' hunlocked hnonce'
    exact ⟨u, hreach.trans hrow' hlast⟩
  cases status with
  | pendingFunding =>
    exact ⟨s, ⟨[], rfl, fun a ha => by cases ha⟩, rfl, row, hrow, Api.sameTerms_refl row, hstatus⟩
  | funded =>
    obtain ⟨t, row', hreach, -⟩ := hfirst hpossible
    exact ⟨t, hreach⟩
  | checkedIn => exact hsecond hpossible
  | refunded =>
    obtain rfl : deposit' = .repaid := of_decide_eq_true hpossible
    obtain ⟨R, hR⟩ := (event_shown hrows hid hrow).mp ((htells.repaid rfl).mpr rfl)
    obtain ⟨t, row', hreach, ht, hrow', hs', hterms, htlog, -, -, havailable⟩ := hfirst rfl
    have hR' : Shown t.log "deposit_refunded" row'.onChainBookingId R := by
      rw [htlog, hterms.onChainBookingId]
      exact hR
    obtain ⟨u, hlast⟩ :=
      ht.reach_refunded hrow' hs' hR' (havailable _ R hR fun hF => happart R hF hR)
    exact ⟨u, hreach.trans hrow' hlast⟩
  | completed =>
    obtain rfl : deposit' = .released := of_decide_eq_true hpossible
    obtain ⟨C, hC⟩ := (event_shown hrows hid hrow).mp (htells.released.mpr rfl)
    obtain ⟨t, hreach⟩ := hsecond rfl
    obtain ⟨row', hrow', hterms, hs'⟩ := hreach.stored
    have htlog : t.log = s.log := congrArg (fun c => c.ledger.escrow.events) hreach.chain
    have hC' : Shown t.log "visit_confirmed" row'.onChainBookingId C := by
      rw [htlog, hterms.onChainBookingId]
      exact hC
    obtain ⟨u, hlast⟩ := (hreach.backed h).reach_completed hrow' hs' hC'
    exact ⟨u, hreach.trans hrow' hlast⟩
  | _ => cases hpossible

/-- The visit time comes, and the host confirms. -/
def confirmOnChain : List Action :=
  [.chain (.close 1893492000 8),
   callOf "8f5e1b1d0a3c4e6f7a8b9c0d1e2f30415263748596a7b8c9dadbecfd0e1f2a3b" "host"
     (.confirmVisit "host" 4261549847195894357)]

/-- What brings a deposit about on chain. -/
def depositRun : Deposit → List Action
  | .absent => []
  | .created => bookBoth.drop 1
  | .withdrawn => bookBoth.drop 1 ++ [cancelOnChain]
  | .held => bookBoth.drop 1 ++ [fundOnChain]
  | .repaid => bookBoth.drop 1 ++ [fundOnChain, cancelOnChain]
  | .released => bookBoth.drop 1 ++ fundOnChain :: confirmOnChain

theorem rowless_reached (deposit : Deposit) :
    ∃ s ∈ (machine sampleSetup).exec sampleStart (setUpEscrow :: depositRun deposit),
      dealOf "3b241101-e2bb-4255-8caf-4136c566a962" 4261549847195894357 s =
        some ⟨none, deposit⟩ := by
  cases deposit <;> decide +kernel

theorem pending_reached (deposit : Deposit) :
    ∃ s ∈ (machine sampleSetup).exec sampleStart
        (setUpEscrow :: .api Api.bookRequest :: depositRun deposit),
      dealOf "3b241101-e2bb-4255-8caf-4136c566a962" 4261549847195894357 s =
        some ⟨some .pendingFunding, deposit⟩ ∧
      (∃ row ∈ s.db.bookings.lookup "3b241101-e2bb-4255-8caf-4136c566a962",
        row.renter = "renter") ∧
      (∀ e ∈ s.log, ∀ e' ∈ s.log, eventName e.event = "booking_funded" →
        eventName e'.event = "deposit_refunded" → e'.txHash ≠ e.txHash) ∧
      s.db.payments = [] ∧ s.server.flow.calls = [] ∧ s.db.challenges.keys = [] := by
  cases deposit <;> decide +kernel

/-- **The possible deals are those that come about**: a row and a deposit are found together,
    in some state of some run, if and only if the row is missing or still awaits its funding,
    or the deposit came in and the row is not settled, or they have the same outcome. -/
theorem deal_reached_iff (d : Deal) :
    (∃ S s₀ s as id n, FreshSystem S s₀ ∧ (machine S).exec s₀ as = some s ∧
      onChainBookingId id = some (idText n) ∧ dealOf id n s = some d) ↔ d.possible = true := by
  constructor
  · rintro ⟨S, s₀, s, as, id, n, h₀, hrun, hid, hd⟩
    obtain ⟨ms, d', hms, hd'⟩ :=
      deal_exec (backed_of_fresh h₀) (labelled_of_fresh h₀) hrun hid (deal_of_fresh h₀ id n)
    obtain rfl : d = d' := Option.some.inj (hd.symm.trans hd')
    exact dealMachine.exec_invariant (I := fun d => d.possible = true)
      (fun d m d' h hstep => possible_step d m d' h hstep) hms rfl
  · intro hpossible
    obtain ⟨row, deposit⟩ := d
    have hid : onChainBookingId "3b241101-e2bb-4255-8caf-4136c566a962" =
        some (idText 4261549847195894357) := by decide +kernel
    cases row with
    | none =>
      obtain ⟨s, hrun, hd⟩ := rowless_reached deposit
      exact ⟨_, _, s, _, _, _, fresh_sampleStart, hrun, hid, hd⟩
    | some status =>
      obtain ⟨s, hrun, hd, ⟨x, hx, hrenter⟩, happart, hpayments, hcalls, hkeys⟩ :=
        pending_reached deposit
      obtain ⟨h, hrows⟩ := labelled_of_exec fresh_sampleStart hrun
      have hnew : s.db.challenges = ∅ := AList.ext (List.map_eq_nil_iff.mp hkeys)
      have hnonce : FreshNonce sampleSetup s "3b241101-e2bb-4255-8caf-4136c566a962" x.renter
          Api.Workflow.samplePayload.nonce 1893488400000 := by
        refine ⟨?_, by rw [hnew, AList.lookup_empty]⟩
        rw [hrenter]
        exact Api.carries_sample
      obtain ⟨t, hreach⟩ := h.row_follows hrows hid hd ⟨hpayments, hcalls, hnew⟩ hx hnonce
        (fun hash hF hR => by
          obtain ⟨e, he, hname, -, rfl⟩ := hF
          obtain ⟨e', he', hname', -, hsame⟩ := hR
          exact happart e he e' he' hname hname' hsame) hpossible
      obtain ⟨bs, hbs, -⟩ := hreach.run
      obtain ⟨row', hrow', -, hstatus'⟩ := hreach.stored
      have hd' : dealOf "3b241101-e2bb-4255-8caf-4136c566a962" 4261549847195894357 t =
          some ⟨some status, deposit⟩ := by
        refine dealOf_eq_some.mpr ⟨?_, by rw [hrow', Option.map_some, hstatus']⟩
        rw [State.log, hreach.chain]
        exact (dealOf_eq_some.mp hd).1
      exact ⟨_, _, t, _, _, _, fresh_sampleStart, (machine sampleSetup).exec_trans hrun hbs, hid, hd'⟩

end PovDeposit.Joint
