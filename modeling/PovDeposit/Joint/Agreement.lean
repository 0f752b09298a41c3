/-
  Do a funded row and the money on chain agree?

  The verifier binds a transaction to a row by the name of the event and the on-chain id, and
  by nothing else: neither the parties nor the amount nor the visit time of the booking on
  chain are compared with the row. Whoever calls `create_booking` first with the id of a row
  chooses them.

  So the terms agree where the deposits that reach the contract under the id of a row are
  those of a booking with the row's terms. `keepsTerms` is that condition on a step: it looks
  at the `fund_booking` calls of a transaction, and at the events that are there when a row
  is stored. Both sides keep their terms afterwards.
-/
import PovDeposit.Joint.Settlement

namespace PovDeposit.Joint

open PovDeposit.Lib
open PovDeposit.Contract (Address Booking Ledger Chronicled ledgerMachine ledgerStep)
open PovDeposit.Api (Db BookingRow BookingStatus path paymentsOf)
open PovDeposit.Api.Workflow (Created)

/-- A booking on chain has these terms; its visit time is in whole seconds. -/
def agrees (b : Booking) (renter host : Address) (depositAmount visitTime : Int) : Bool :=
  b.renter = renter && b.host = host && b.depositAmount = depositAmount &&
    (b.visitTime.toNat : Int) = visitTime / 1000

def agreesWithRow (b : Booking) (row : BookingRow) : Bool :=
  agrees b row.renter row.host row.depositAmount row.visitTime

/-- A `fund_booking` call on a booking that can be funded meets rows with its terms only. -/
def fundsAgreed (db : Db) (l : Ledger) : Contract.Action → Bool
  | .invoke _ _ _ (.fundBooking _ n) =>
      match l.escrow.booking? n with
      | some b => b.state ≠ .created ||
          db.rows.all fun row => idText n ≠ row.onChainBookingId || agreesWithRow b row
      | none => true
  | _ => true

/-- A booking that is stored under an on-chain id that was funded already has the terms of the
    booking on chain. -/
def createAgreed (R : Api.Runtime) (l : Ledger) (uuid : String)
    (input : Api.Workflow.CreateBooking) : Bool :=
  l.escrow.events.all fun e =>
    match e.event with
    | .bookingFunded n _ => Api.onChainBookingId uuid ≠ some (idText n) ||
        (l.escrow.booking? n).all fun b => (R.date input.visitTime).all fun visitTime =>
          agrees b input.renter input.host input.depositAmount visitTime
    | _ => true

/-- The condition on a step. A create request counts where it is served. -/
def keepsTerms (S : Setup) (s : State) : Action → Bool
  | .chain a => decide ((ledgerMachine S.deployment).Along
      (fun l c => fundsAgreed s.db l c = true) s.chain.ledger a.calls)
  | .api (.create _ now uuid body) =>
      match body.parse S.config.runtime with
      | some input =>
          !(Api.Workflow.create S.config.runtime S.config.network s.db now uuid input).isOk ||
            createAgreed S.config.runtime s.chain.ledger uuid input
      | none => true
  | .api _ => true

/-- Where the booking with a row's on-chain id was funded, it has the row's terms. -/
def Agreed (db : Db) (l : Ledger) : Prop :=
  ∀ id row n b, db.bookings.lookup id = some row → idText n = row.onChainBookingId →
    l.HasFunded n → l.escrow.booking? n = some b → agreesWithRow b row = true

theorem terms_of_agrees {b : Booking} {row : BookingRow} (h : agreesWithRow b row = true) :
    b.renter = row.renter ∧ b.host = row.host ∧ b.depositAmount = row.depositAmount := by
  simp only [agreesWithRow, agrees, Bool.and_eq_true, decide_eq_true_eq] at h
  exact ⟨h.1.1.1, h.1.1.2, h.1.2⟩

/-! ## The chain goes on -/

theorem agrees_of_sameTerms {b b' : Booking} {row : BookingRow} (hterms : b.SameTerms b')
    (h : agreesWithRow b row = true) : agreesWithRow b' row = true := by
  unfold agreesWithRow agrees at h ⊢
  rw [hterms.renter, hterms.host, hterms.depositAmount, hterms.visitTime]
  exact h

theorem agreesWithRow_of_sameTerms {b : Booking} {row row' : BookingRow}
    (hterms : row.SameTerms row') : agreesWithRow b row' = agreesWithRow b row := by
  unfold agreesWithRow
  rw [hterms.renter, hterms.host, hterms.depositAmount, hterms.visitTime]

/-- One call of a transaction. -/
theorem agreed_ledgerStep {d : Contract.Deployment} {db : Db} {l l' : Ledger} {c : Contract.Action}
    (hc : Chronicled d.contract l) (h : Agreed db l) (hcond : fundsAgreed db l c = true)
    (hstep : ledgerStep d l c = some l') : Agreed db l' := by
  intro id row n b' hrow hid hfunded hb'
  have hmem : row ∈ db.rows := Api.mem_rows.mpr ⟨id, hrow⟩
  by_cases hbefore : l.HasFunded n
  · -- funded before: the booking was there, with the same terms
    obtain ⟨e, he, amount, hevent⟩ := hbefore
    obtain ⟨b, -, hb, -⟩ := hc.booking_of_event (n := n) he (by rw [hevent]; rfl)
    obtain ⟨x, hx, hterms, -⟩ := Contract.edge_step l c l' hc.recorded.solvent.keyed hstep hb
    obtain rfl : b' = x := Option.some.inj (hb'.symm.trans hx)
    exact agrees_of_sameTerms hterms (h id row n b hrow hid ⟨e, he, amount, hevent⟩ hb)
  · -- funded now, by a call that the condition is about
    obtain ⟨hash, auths, acc, b, rfl, hb, hstate, hx⟩ :=
      Contract.funds_step l c l' hc hbefore hstep hfunded
    obtain rfl : b' = b.withState .funded := Option.some.inj (hb'.symm.trans hx)
    simp only [fundsAgreed, hb, hstate, List.all_eq_true, Bool.or_eq_true, decide_eq_true_eq] at hcond
    have hrowAgrees := (hcond.resolve_left (not_not.mpr rfl) row hmem).resolve_left (not_not.mpr hid)
    exact agrees_of_sameTerms (Contract.sameTerms_withState b .funded) hrowAgrees

theorem agreed_exec {d : Contract.Deployment} {db : Db} {l l' : Ledger} {cs : List Contract.Action}
    (hc : Chronicled d.contract l) (h : Agreed db l)
    (hcond : (ledgerMachine d).Along (fun l c => fundsAgreed db l c = true) l cs)
    (hrun : (ledgerMachine d).exec l cs = some l') : Agreed db l' := by
  refine ((ledgerMachine d).exec_invariant_along
    (I := fun l => Chronicled d.contract l ∧ Agreed db l) ?_ hrun hcond ⟨hc, h⟩).2
  rintro l c l' ⟨hc, h⟩ hcond hstep
  exact ⟨Contract.chronicled_step l c l' hc hstep, agreed_ledgerStep hc h hcond hstep⟩

/-! ## The API goes on -/

/-- A row that is stored now, under the condition. -/
theorem agreed_created {R : Api.Runtime} {db db' : Db} {l : Ledger} {uuid : String}
    {input : Api.Workflow.CreateBooking} {row : BookingRow} (hcond : createAgreed R l uuid input = true)
    (hrow : Created R db uuid input db' row) {n : UInt64} {b : Booking}
    (hid : idText n = row.onChainBookingId) (hfunded : l.HasFunded n)
    (hb : l.escrow.booking? n = some b) : agreesWithRow b row = true := by
  obtain ⟨e, he, amount, hevent⟩ := hfunded
  have he' := List.all_eq_true.mp hcond e he
  simp only [hevent, Bool.or_eq_true, decide_eq_true_eq] at he'
  rcases he' with hne | hterms
  · rw [hid] at hne
    exact absurd hrow.onChain hne
  · rw [hb, hrow.visitTime] at hterms
    unfold agreesWithRow
    rw [hrow.renter, hrow.host, hrow.depositAmount]
    exact hterms

theorem agreed_apiStep {S : Setup} {s : State} (h : Backed S s) (hag : Agreed s.db s.chain.ledger)
    {a : Api.Action} {server : Api.Server} (hcond : keepsTerms S s (.api a) = true)
    (hstep : Api.step S.config s.server a = some server) : Agreed server.db s.chain.ledger := by
  intro id row' n b hrow' hid hfunded hb
  rcases Api.row_of_step h.paid.coherent hstep hrow' with ⟨row, hrow, hterms⟩ |
    ⟨sender, now, uuid, body, input, rfl, hparse, hok, hcreated⟩
  · rw [agreesWithRow_of_sameTerms hterms]
    exact hag id row n b hrow (hid.trans hterms.onChainBookingId) hfunded hb
  · have hinput : createAgreed S.config.runtime s.chain.ledger uuid input = true := by
      have hkeeps : keepsTerms S s (.api (.create sender now uuid body)) =
          (!(Api.Workflow.create S.config.runtime S.config.network s.db now uuid input).isOk ||
            createAgreed S.config.runtime s.chain.ledger uuid input) := by
        show (match body.parse S.config.runtime with | some _ => _ | none => _) = _
        rw [hparse]
      rw [hkeeps, hok] at hcond
      exact hcond
    exact agreed_created hinput hcreated hid hfunded hb

theorem agreed_step {S : Setup} (s : State) (a : Action) (s' : State)
    (h : Backed S s ∧ Agreed s.db s.chain.ledger) (hcond : keepsTerms S s a = true)
    (hstep : step S s a = some s') : Backed S s' ∧ Agreed s'.db s'.chain.ledger := by
  refine ⟨backed_step s a s' h.1 hstep, ?_⟩
  cases a with
  | chain a =>
    obtain ⟨chain, hchain, rfl⟩ := Option.map_eq_some_iff.mp hstep
    exact agreed_exec h.1.logged.chronicled h.2 (of_decide_eq_true hcond) (ledger_of_step hchain)
  | api a =>
    simp only [step, Option.ite_none_right_eq_some, Option.map_eq_some_iff] at hstep
    obtain ⟨-, server, hserver, rfl⟩ := hstep
    exact agreed_apiStep h.1 h.2 hcond hserver

/-! ## Agreement -/

/-- **A row marked funded agrees with the money on chain**, in every run whose steps all meet
    `keepsTerms`. -/
theorem funded_rows_agree (S : Setup) (s₀ s : State) (as : List Action) (h₀ : FreshSystem S s₀)
    (hrun : (machine S).exec s₀ as = some s)
    (hcond : (machine S).Along (fun s a => keepsTerms S s a = true) s₀ as) (id : String)
    (row : BookingRow) (hrow : s.db.bookings.lookup id = some row)
    (hstatus : row.status ∈ [.funded, .checkedIn, .completed, .refunded]) :
    ∃ n b, idText n = row.onChainBookingId ∧ s.chain.ledger.escrow.booking? n = some b ∧
      b.renter = row.renter ∧ b.host = row.host ∧ b.depositAmount = row.depositAmount ∧
      (b.visitTime.toNat : Int) = row.visitTime / 1000 ∧
      (∃ t ∈ paymentsOf s.db id, t.kind = .fund) ∧
      ∀ t ∈ paymentsOf s.db id, t.kind = .fund → t.amount = b.depositAmount := by
  have hagreed : Agreed s₀.db s₀.chain.ledger := by
    have hbookings : s₀.db.bookings = ∅ := h₀.server.flow.bookings
    intro id row n b hrow
    rw [hbookings, AList.lookup_empty] at hrow
    cases hrow
  obtain ⟨h, hag⟩ := (machine S).exec_invariant_along agreed_step hrun hcond
    ⟨backed_of_fresh h₀, hagreed⟩
  have hpast : BookingStatus.funded ∈ path row.status := by
    simp only [List.mem_cons, List.not_mem_nil, or_false] at hstatus
    rcases hstatus with hs | hs | hs | hs <;> rw [hs] <;> decide
  obtain ⟨n, b, a, hid, hb, -, hfunded, -⟩ := h.funded hrow hpast
  have hterms := hag id row n b hrow hid hfunded hb
  simp only [agreesWithRow, agrees, Bool.and_eq_true, decide_eq_true_eq] at hterms
  obtain ⟨⟨⟨hrenter, hhost⟩, hamount⟩, hvisit⟩ := hterms
  have hdues := h.paid.dues id row hrow
  have hfund : Api.TransactionKind.fund ∈ Api.dues row.status := by
    simp only [List.mem_cons, List.not_mem_nil, or_false] at hstatus
    rcases hstatus with hs | hs | hs | hs <;> rw [hs] <;> decide
  exact ⟨n, b, hid, hb, hrenter, hhost, hamount, hvisit, hdues.exists_kind hfund,
    fun t ht _ => (hdues.amount_eq ht).trans hamount.symm⟩

theorem funded_rows_agree_funded : ∃ s row n b,
    (machine sampleSetup).exec sampleStart (setUpEscrow :: bookBoth ++ fundBoth) = some s ∧
      s.db.bookings.lookup "3b241101-e2bb-4255-8caf-4136c566a962" = some row ∧
      row.status = .funded ∧ idText n = row.onChainBookingId ∧
      s.chain.ledger.escrow.booking? n = some b ∧ b.depositAmount = 1000000 := by
  obtain ⟨s, hrun, row, hrow, hstatus, hamount⟩ : ∃ s ∈ (machine sampleSetup).exec sampleStart
      (setUpEscrow :: bookBoth ++ fundBoth),
      ∃ row ∈ s.db.bookings.lookup "3b241101-e2bb-4255-8caf-4136c566a962",
        row.status = .funded ∧ row.depositAmount = 1000000 := by decide +kernel
  have hcond : (machine sampleSetup).Along (fun s a => keepsTerms sampleSetup s a = true) sampleStart
      (setUpEscrow :: bookBoth ++ fundBoth) := by decide +kernel
  obtain ⟨n, b, hid, hb, -, -, hterms, -⟩ := funded_rows_agree sampleSetup sampleStart s _
    fresh_sampleStart hrun hcond _ row hrow (by rw [hstatus]; decide)
  exact ⟨s, row, n, b, hrun, hrow, hstatus, hid, hb, hterms.trans hamount⟩

/-- Someone else creates the on-chain booking of a row with terms of their own and funds it,
    in the transaction that the API is then told. -/
def foreignFunding : List Action :=
  [setUpEscrow, .api Api.bookRequest,
   callOf "5a9392784e07eb40cfb3f4a464e0a91451f573eeb59d600983e190bd8aaddca6" "mallory"
     (.createBooking 4261549847195894357 "mallory" "oscar" 100000 1892809060),
   callOf "2514e1475addffb378fdb07e9a1092176c09dbfbd129ebcaacd0099818d2534c" "mallory"
     (.fundBooking "mallory" 4261549847195894357)] ++
  Api.fundRequest.map .api

/-- The row is funded, and nothing of the booking on chain agrees with it. -/
theorem funded_row_disagrees : ∃ s row n b t,
    (machine sampleSetup).exec sampleStart foreignFunding = some s ∧
      s.db.bookings.lookup "3b241101-e2bb-4255-8caf-4136c566a962" = some row ∧
      row.status = .funded ∧ idText n = row.onChainBookingId ∧
      s.chain.ledger.escrow.booking? n = some b ∧ b.renter ≠ row.renter ∧ b.host ≠ row.host ∧
      b.depositAmount ≠ row.depositAmount ∧ (b.visitTime.toNat : Int) ≠ row.visitTime / 1000 ∧
      paymentsOf s.db "3b241101-e2bb-4255-8caf-4136c566a962" = [t] ∧
      t.amount ≠ b.depositAmount :=
  ⟨_, _, 4261549847195894357, _, _, rfl, rfl, rfl, by decide +kernel, rfl, by decide, by decide,
    by decide, by decide, rfl, by decide⟩

end PovDeposit.Joint
