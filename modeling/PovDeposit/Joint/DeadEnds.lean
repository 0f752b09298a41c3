/-
  Rows that nobody can bring to the status of their deposit.

  What a run keeps is collected in `Keeps`: the log and the payments grow, and a row keeps its
  terms and the statuses it has had. Two things follow. A row that is checked in is never
  `REFUNDED`. And a transaction is recorded for one payment: where a payment of another booking,
  or of the other kind, has the hash of the event that a payment of a row rests on, that payment
  of the row is never recorded.
-/
import PovDeposit.Joint.Agreement
import PovDeposit.Joint.Reconciliation

namespace PovDeposit.Joint

open PovDeposit.Lib
open PovDeposit.Contract (LoggedEvent)
open PovDeposit.Api (BookingRow BookingStatus TransactionKind PaymentTransaction path dues)

/-! ## What a run keeps -/

structure Keeps (s t : State) : Prop where
  log : s.log <+: t.log
  payments : s.db.payments <+: t.db.payments
  rows : ∀ id row, s.db.bookings.lookup id = some row →
    ∃ row', t.db.bookings.lookup id = some row' ∧ row.SameTerms row' ∧
      path row.status <+: path row'.status

theorem keeps_refl (s : State) : Keeps s s :=
  ⟨List.prefix_rfl, List.prefix_rfl,
    fun _ row hrow => ⟨row, hrow, Api.sameTerms_refl row, List.prefix_rfl⟩⟩

theorem Keeps.trans {s t u : State} (h : Keeps s t) (h' : Keeps t u) : Keeps s u := by
  refine ⟨h.log.trans h'.log, h.payments.trans h'.payments, fun id row hrow => ?_⟩
  obtain ⟨x, hx, hterms, hpath⟩ := h.rows id row hrow
  obtain ⟨y, hy, hterms', hpath'⟩ := h'.rows id x hx
  exact ⟨y, hy, hterms.trans hterms', hpath.trans hpath'⟩

theorem keeps_step {S : Setup} (s : State) (a : Action) (s' : State) (h : Backed S s)
    (hstep : step S s a = some s') : Keeps s s' := by
  cases a with
  | chain a =>
    obtain ⟨chain, hchain, rfl⟩ := Option.map_eq_some_iff.mp hstep
    exact ⟨(logged_step h.logged hchain).2, List.prefix_rfl, (keeps_refl s).rows⟩
  | api a =>
    simp only [step, Option.ite_none_right_eq_some, Option.map_eq_some_iff] at hstep
    obtain ⟨-, server, hserver, rfl⟩ := hstep
    rcases Api.flow_of_step hserver with hsame | ⟨fa, hfa⟩
    · have hdb : State.db { s with server := server } = s.db :=
        congrArg Api.Workflow.State.db hsame
      refine ⟨List.prefix_rfl, ⟨[], ?_⟩, ?_⟩
      · rw [List.append_nil, hdb]
      · rw [hdb]
        exact (keeps_refl s).rows
    · refine ⟨List.prefix_rfl, ?_, fun id row hrow => ?_⟩
      · show s.db.payments <+: server.flow.db.payments
        rcases Api.Workflow.payments_step hfa with hsame | ⟨_, p, b, kind, v, _, -, -, hadd⟩
        · exact ⟨[], by rw [List.append_nil, hsame]⟩
        · exact ⟨_, hadd.symm⟩
      · obtain ⟨row', hrow', hcases⟩ := Api.Workflow.row_step h.paid.coherent hfa hrow
        refine ⟨row', hrow', ?_⟩
        rcases hcases with rfl | ⟨i, p, -, -, -, hadmits, rfl⟩
        · exact ⟨Api.sameTerms_refl _, List.prefix_rfl⟩
        · refine ⟨Api.Workflow.sameTerms_apply p.op row, [p.op.target], ?_⟩
          rw [(Api.Workflow.admits_iff.mp hadmits).1]
          exact (Api.Workflow.path_target p.call).symm

theorem keeps_exec {S : Setup} {s t : State} {cs : List Action} (h : Backed S s)
    (hrun : (machine S).exec s cs = some t) : Keeps s t :=
  (machine S).exec_relates backed_step keeps_refl (fun _ _ _ => Keeps.trans) keeps_step hrun h

/-! ## Dead ends -/

section Stuck

variable {S : Setup} {s t : State} (h : Backed S s) {cs : List Action}
  (hrun : (machine S).exec s cs = some t) {id : String} {row row' : BookingRow}
  (hrow : s.db.bookings.lookup id = some row) (hrow' : t.db.bookings.lookup id = some row')
include h hrun hrow hrow'

/-- A row that is checked in is never refunded. -/
theorem Backed.checkedIn_stuck (hstatus : row.status = .checkedIn) : row'.status ≠ .refunded := by
  obtain ⟨x, hx, -, hpath⟩ := (keeps_exec h hrun).rows id row hrow
  obtain rfl : row' = x := Option.some.inj (hrow'.symm.trans hx)
  intro hrefunded
  have hmem : BookingStatus.checkedIn ∈ path row'.status := hpath.subset (by rw [hstatus]; decide)
  rw [hrefunded] at hmem
  exact absurd hmem (by decide)

/-- The payments of a row carry the hashes that were shown for it. -/
theorem Backed.recorded (kind : TransactionKind) {name hash : String}
    (hname : evidence (outcome kind) = some name)
    (hshown : Shown s.log name row.onChainBookingId hash) (hkind : kind ∈ dues row'.status) :
    ∃ q ∈ t.db.payments, q.bookingId = id ∧ q.kind = kind ∧ q.hash = hash := by
  have ht : Backed S t := (machine S).exec_invariant backed_step hrun h
  have hkeeps := keeps_exec h hrun
  obtain ⟨x, hx, hterms, -⟩ := hkeeps.rows id row hrow
  obtain rfl : row' = x := Option.some.inj (hrow'.symm.trans hx)
  obtain ⟨q, hq, hqk⟩ := (ht.paid.dues id row' hrow').exists_kind hkind
  obtain ⟨hmem, hid⟩ := List.mem_filter.mp hq
  have hid' : q.bookingId = id := of_decide_eq_true hid
  obtain ⟨y, hy, hown⟩ := ht.payments q hmem name (hqk ▸ hname)
  rw [hid', hrow', Option.some.injEq] at hy
  subst hy
  have hshown' : Shown t.log name row'.onChainBookingId hash := by
    rw [hterms.onChainBookingId]
    exact shown_mono hkeeps.log hshown
  exact ⟨q, hmem, hid', hqk, shown_unique ht.logged.chronicled hown hshown'⟩

/-- A hash that is recorded for something else is not recorded for the row. -/
theorem Backed.recorded_stuck (kind : TransactionKind) {name hash : String}
    (hname : evidence (outcome kind) = some name)
    (hshown : Shown s.log name row.onChainBookingId hash) {q : PaymentTransaction}
    (hq : q ∈ s.db.payments) (hhash : q.hash = hash) (hother : q.bookingId ≠ id ∨ q.kind ≠ kind) :
    kind ∉ dues row'.status := by
  intro hkind
  have ht : Backed S t := (machine S).exec_invariant backed_step hrun h
  obtain ⟨q', hq', hid, hqk, hhash'⟩ := h.recorded hrun hrow hrow' kind hname hshown hkind
  obtain rfl : q = q' := List.inj_on_of_nodup_map ht.paid.hashes
    ((keeps_exec h hrun).payments.subset hq) hq' (hhash.trans hhash'.symm)
  rcases hother with hne | hne
  · exact hne hid
  · exact hne hqk

/-- A deposit that came in and went back in one transaction is never refunded. -/
theorem Backed.at_once_stuck {hash : String}
    (hfunded : Shown s.log "booking_funded" row.onChainBookingId hash)
    (hrefunded : Shown s.log "deposit_refunded" row.onChainBookingId hash) :
    row'.status ≠ .refunded := by
  intro hstatus
  have ht : Backed S t := (machine S).exec_invariant backed_step hrun h
  obtain ⟨q, hq, -, hqk, hhash⟩ :=
    h.recorded hrun hrow hrow' .fund rfl hfunded (by rw [hstatus]; decide)
  obtain ⟨q', hq', -, hqk', hhash'⟩ :=
    h.recorded hrun hrow hrow' .refund rfl hrefunded (by rw [hstatus]; decide)
  obtain rfl : q = q' := List.inj_on_of_nodup_map ht.paid.hashes hq hq' (hhash.trans hhash'.symm)
  rw [hqk] at hqk'
  cases hqk'

end Stuck

/-! ## Three deposits that cannot be reconciled -/

/-- The row is not settled, its booking on chain has the row's terms, was funded and is
    refunded, and no run brings the row to `REFUNDED`. -/
def Irreconcilable (S : Setup) (s : State) (id : String) (row : BookingRow) : Prop :=
  s.db.bookings.lookup id = some row ∧ row.status ≠ .refunded ∧ row.status ≠ .completed ∧
  (∃ n b, idText n = row.onChainBookingId ∧ s.chain.ledger.escrow.booking? n = some b ∧
    agreesWithRow b row = true ∧ s.chain.ledger.HasFunded n ∧ b.state = .refunded) ∧
  ∀ cs t row', (machine S).exec s cs = some t → t.db.bookings.lookup id = some row' →
    row'.status ≠ .refunded

/-- Funded and checked in at the API, then cancelled on chain before the visit. -/
theorem checked_in_irreconcilable : ∃ as s row, (machine sampleSetup).exec sampleStart as = some s ∧
    row.status = .checkedIn ∧
    Irreconcilable sampleSetup s "3b241101-e2bb-4255-8caf-4136c566a962" row := by
  obtain ⟨s, hrun, row, hrow, ⟨hstatus, hrenter, hunlocked, hnonces⟩, chain, hcancel, b, hb, hid, hterms,
      hstate, e, he, hevent⟩ :
      ∃ s ∈ (machine sampleSetup).exec sampleStart (setUpEscrow :: bookBoth ++ fundBoth),
      ∃ row ∈ s.db.bookings.lookup "3b241101-e2bb-4255-8caf-4136c566a962",
      (row.status = .funded ∧ row.renter = "renter" ∧
        s.server.flow.rowLocked "3b241101-e2bb-4255-8caf-4136c566a962" = false ∧
        s.db.challenges.lookup (Api.CheckIn.hashNonce sampleSetup.config.runtime
          Api.Workflow.samplePayload.nonce) = none) ∧
      ∃ chain ∈ chainStep sampleSetup.deployment s.chain
        (.transaction "369d8e27270351b658b102785616797dab62b659058ca2494872b6bd0181aca4" true
          [⟨["renter"], fun _ _ _ _ => true, .cancelBooking "renter" 4261549847195894357⟩]),
      ∃ b ∈ chain.ledger.escrow.booking? 4261549847195894357,
      idText 4261549847195894357 = row.onChainBookingId ∧ agreesWithRow b row = true ∧
      b.state = .refunded ∧
      ∃ e ∈ chain.ledger.escrow.events, e.event = .bookingFunded 4261549847195894357 1000000 := by
    decide +kernel
  have hnonce : FreshNonce sampleSetup s "3b241101-e2bb-4255-8caf-4136c566a962" row.renter
      Api.Workflow.samplePayload.nonce 1893488400000 := by
    refine ⟨?_, hnonces⟩
    rw [hrenter]
    exact Api.carries_sample
  have h := backed_of_exec fresh_sampleStart hrun
  obtain ⟨t, hreach⟩ := h.reach_checkedIn hrow hstatus hunlocked hnonce
  obtain ⟨row', hrow', hsame, hstatus'⟩ := hreach.stored
  obtain ⟨bs, hbs, -⟩ := hreach.run
  have hlast : (machine sampleSetup).exec t [cancelOnChain] = some { t with chain := chain } := by
    rw [Option.mem_def, ← hreach.chain] at hcancel
    refine (machine sampleSetup).exec_single ?_
    simp only [machine, cancelOnChain, callOf, step, hcancel, Option.map_some]
  have hall := (machine sampleSetup).exec_trans ((machine sampleSetup).exec_trans hrun hbs) hlast
  refine ⟨_, _, row', hall, hstatus', hrow', by rw [hstatus']; decide, by rw [hstatus']; decide,
    ⟨_, b, ?_, hb, ?_, ⟨e, he, _, hevent⟩, hstate⟩, fun cs u x hu hx => ?_⟩
  · rw [hid, hsame.onChainBookingId]
  · rw [agreesWithRow_of_sameTerms hsame, hterms]
  · exact (backed_of_exec fresh_sampleStart hall).checkedIn_stuck hu hrow' hx hstatus'

/-- The deposit goes in and comes back in one transaction. -/
def fundAndCancel : Action :=
  .chain (.transaction "2514e1475addffb378fdb07e9a1092176c09dbfbd129ebcaacd0099818d2534c" true
    [⟨["renter"], fun _ _ _ _ => true, .fundBooking "renter" 4261549847195894357⟩,
     ⟨["renter"], fun _ _ _ _ => true, .cancelBooking "renter" 4261549847195894357⟩])

theorem at_once_irreconcilable : ∃ as s row, (machine sampleSetup).exec sampleStart as = some s ∧
    row.status = .pendingFunding ∧
    Irreconcilable sampleSetup s "3b241101-e2bb-4255-8caf-4136c566a962" row := by
  obtain ⟨s, hrun, row, hrow, b, hb, hstatus, hid, hterms, hstate, hlog⟩ :
      ∃ s ∈ (machine sampleSetup).exec sampleStart (setUpEscrow :: bookBoth ++ [fundAndCancel]),
      ∃ row ∈ s.db.bookings.lookup "3b241101-e2bb-4255-8caf-4136c566a962",
      ∃ b ∈ s.chain.ledger.escrow.booking? 4261549847195894357,
      row.status = .pendingFunding ∧ idText 4261549847195894357 = row.onChainBookingId ∧
      agreesWithRow b row = true ∧ b.state = .refunded ∧
      s.log = [
        ⟨"5a9392784e07eb40cfb3f4a464e0a91451f573eeb59d600983e190bd8aaddca6", 7,
          .bookingCreated 4261549847195894357 "renter" "host" 1000000⟩,
        ⟨"2514e1475addffb378fdb07e9a1092176c09dbfbd129ebcaacd0099818d2534c", 7,
          .bookingFunded 4261549847195894357 1000000⟩,
        ⟨"2514e1475addffb378fdb07e9a1092176c09dbfbd129ebcaacd0099818d2534c", 7,
          .depositRefunded 4261549847195894357 1000000⟩] := by decide +kernel
  have hF : (⟨"2514e1475addffb378fdb07e9a1092176c09dbfbd129ebcaacd0099818d2534c", 7,
      .bookingFunded 4261549847195894357 1000000⟩ : LoggedEvent) ∈ s.log := by
    rw [hlog]
    exact .tail _ (.head _)
  have hR : (⟨"2514e1475addffb378fdb07e9a1092176c09dbfbd129ebcaacd0099818d2534c", 7,
      .depositRefunded 4261549847195894357 1000000⟩ : LoggedEvent) ∈ s.log := by
    rw [hlog]
    exact .tail _ (.tail _ (.head _))
  refine ⟨_, s, row, hrun, hstatus, hrow, by rw [hstatus]; decide, by rw [hstatus]; decide,
    ⟨_, b, hid, hb, hterms, ⟨_, hF, _, rfl⟩, hstate⟩, fun cs t x ht hx => ?_⟩
  exact (backed_of_exec fresh_sampleStart hrun).at_once_stuck ht hrow hx
    ⟨_, hF, rfl, hid, rfl⟩ ⟨_, hR, rfl, hid, rfl⟩

/-- An API with a second listed property. -/
def twoListings : State where
  chain := sampleStart.chain
  server :=
    { flow :=
        { db :=
            { Api.Workflow.listed.db with
              properties := [⟨"property", "loft", "host", true⟩, ⟨"property-2", "studio", "host", true⟩]
              slots := [⟨"slot", "property", 1893492000000⟩, ⟨"slot-2", "property-2", 1893492000000⟩] }
          calls := [] }
      exchanges := []
      auth := Api.listedServer.auth }

theorem fresh_twoListings : FreshSystem sampleSetup twoListings :=
  ⟨fresh_sampleStart.chain, ⟨⟨rfl, rfl, rfl, rfl, rfl⟩, rfl, Api.fresh_listedServer.auth⟩⟩

/-- Two bookings are funded by one transaction, the second one is told to the API, and the
    first one is cancelled on chain. -/
def sharedFunding : List Action :=
  setUpEscrow :: bookBoth ++
  [.api (.create "renter" 1892808000000 "9b2e4c1a-7f3d-4a58-b6c0-1e5d8f2a7c34"
     ⟨"studio", "renter", "host", "1000000", "2030-01-01T10:00:00.000Z",
       "6c86c6aac5fb24bcf5d9939cb7d7d5645ce39418f449e03b262dd4fa14b4b92b"⟩),
   callOf "e4c1f0b5a0d66d6a1b4c0c0f8d2a7b1e5f3a9c8d7e6b5a4f3e2d1c0b9a8f7e6d" "renter"
     (.createBooking 11181958601495104088 "renter" "host" 1000000 1893492000),
   .chain (.transaction "2514e1475addffb378fdb07e9a1092176c09dbfbd129ebcaacd0099818d2534c" true
     [⟨["renter"], fun _ _ _ _ => true, .fundBooking "renter" 4261549847195894357⟩,
      ⟨["renter"], fun _ _ _ _ => true, .fundBooking "renter" 11181958601495104088⟩])] ++
  (Api.settlingRun "renter" (.fund "9b2e4c1a-7f3d-4a58-b6c0-1e5d8f2a7c34"
      "2514e1475addffb378fdb07e9a1092176c09dbfbd129ebcaacd0099818d2534c")
    (.success 7 1892809000)
    [⟨true, "2514e1475addffb378fdb07e9a1092176c09dbfbd129ebcaacd0099818d2534c",
      [.string "booking_funded", .integer 11181958601495104088]⟩] 0 0 6).map .api ++ [cancelOnChain]

theorem shared_hash_irreconcilable : ∃ as s row,
    (machine sampleSetup).exec twoListings as = some s ∧ row.status = .pendingFunding ∧
    Irreconcilable sampleSetup s "3b241101-e2bb-4255-8caf-4136c566a962" row := by
  obtain ⟨s, hrun, row, hrow, b, hb, hstatus, hid, hterms, hstate, ⟨q, hq, hother, hhash⟩, e, he,
      hevent, hF⟩ :
      ∃ s ∈ (machine sampleSetup).exec twoListings sharedFunding,
      ∃ row ∈ s.db.bookings.lookup "3b241101-e2bb-4255-8caf-4136c566a962",
      ∃ b ∈ s.chain.ledger.escrow.booking? 4261549847195894357,
      row.status = .pendingFunding ∧ idText 4261549847195894357 = row.onChainBookingId ∧
      agreesWithRow b row = true ∧ b.state = .refunded ∧
      (∃ q ∈ s.db.payments, q.bookingId ≠ "3b241101-e2bb-4255-8caf-4136c566a962" ∧
        q.hash = "2514e1475addffb378fdb07e9a1092176c09dbfbd129ebcaacd0099818d2534c") ∧
      ∃ e ∈ s.log, e.event = .bookingFunded 4261549847195894357 1000000 ∧
        e.txHash = "2514e1475addffb378fdb07e9a1092176c09dbfbd129ebcaacd0099818d2534c" := by
    decide +kernel
  refine ⟨_, s, row, hrun, hstatus, hrow, by rw [hstatus]; decide, by rw [hstatus]; decide,
    ⟨_, b, hid, hb, hterms, ⟨e, he, _, hevent⟩, hstate⟩, fun cs t x ht hx hrefunded => ?_⟩
  have hnot := (backed_of_exec fresh_twoListings hrun).recorded_stuck ht hrow hx .fund rfl
    ⟨e, he, by rw [hevent]; rfl, by rw [hevent]; exact hid, hF⟩
    hq hhash (.inl hother)
  rw [hrefunded] at hnot
  exact hnot (by decide)

/-- Not every settled deposit can be reconciled: not one that was cancelled on chain after the
    check-in, not one that went in and came back in one transaction, and not one whose funding
    transaction is recorded for another booking. -/
theorem settled_deposits_irreconcilable :
    (∃ as s row, (machine sampleSetup).exec sampleStart as = some s ∧ row.status = .checkedIn ∧
      Irreconcilable sampleSetup s "3b241101-e2bb-4255-8caf-4136c566a962" row) ∧
    (∃ as s row, (machine sampleSetup).exec sampleStart as = some s ∧
      row.status = .pendingFunding ∧
      Irreconcilable sampleSetup s "3b241101-e2bb-4255-8caf-4136c566a962" row) ∧
    (∃ as s row, (machine sampleSetup).exec twoListings as = some s ∧
      row.status = .pendingFunding ∧
      Irreconcilable sampleSetup s "3b241101-e2bb-4255-8caf-4136c566a962" row) :=
  ⟨checked_in_irreconcilable, at_once_irreconcilable, shared_hash_irreconcilable⟩

end PovDeposit.Joint
