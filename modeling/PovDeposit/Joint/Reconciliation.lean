/-
  Telling the API of a deposit that is settled on chain.

  `Backed.settle` is one move of a row by the event that its next status rests on: the request
  is served to its end, or, where an open transaction has locked the row, that transaction
  commits; it is for the same event, since a booking has no two of a kind.
  `Backed.reach_checkedIn` is the check-in. The moves of a row to `REFUNDED` and `COMPLETED`
  are put together from these.

  A move needs the hash of its event for a payment row of its own. `Available` says that no
  payment has the hash and that no other booking is about to record it. `Joint.DeadEnds` has
  the rows that nobody can bring on.
-/
import PovDeposit.Joint.Settlement

namespace PovDeposit.Joint

open PovDeposit.Lib
open PovDeposit.Contract (Address Booking ContractEvent Ledger LoggedEvent Chronicled eventsOf)
open PovDeposit.Api (BookingRow BookingStatus Check Request)
open PovDeposit.Api.Workflow (Call Clear Verification)

/-! ## Steps of the API alone -/

theorem api_exec {S : Setup} {s : State} {bs : List Api.Action} {server : Api.Server}
    (hrun : (Api.machine S.config).exec s.server bs = some server)
    (htrue : (Api.machine S.config).Along
      (fun t a => State.truthful { s with server := t } a = true) s.server bs) :
    (machine S).exec s (bs.map .api) = some { s with server := server } := by
  induction bs generalizing s with
  | nil =>
    simp only [Machine.exec_nil, Option.some.injEq] at hrun
    rw [← hrun]
    rfl
  | cons a bs ih =>
    obtain ⟨t, ht, hrest⟩ := ((Api.machine S.config).exec_cons_eq_some).mp hrun
    have hstep : step S s (.api a) = some { s with server := t } := by
      have hfirst : s.truthful a = true := htrue.1
      have hserver : Api.step S.config s.server a = some t := ht
      simp [step, hfirst, hserver]
    exact ((machine S).exec_cons_eq_some).mpr
      ⟨_, hstep, ih (s := { s with server := t }) hrest (htrue.2 t ht)⟩

/-- Steps without an answer of the RPC server are truthful. -/
theorem along_truthful {S : Setup} {s : State} (server : Api.Server) {as : List Api.Action}
    (h : ∀ a ∈ as, ∀ i transaction events, a ≠ .verify i transaction events) :
    (Api.machine S.config).Along (fun t a => State.truthful { s with server := t } a = true)
      server as := by
  refine (Api.machine S.config).along_mono (fun t a ha => ?_)
    ((Api.machine S.config).along_of_forall
      (Q := fun a => ∀ i transaction events, a ≠ .verify i transaction events) server h)
  cases a with
  | verify i transaction events => exact absurd rfl (ha i transaction events)
  | _ => rfl

/-- A request with a transaction is served truthfully where the answers of its one verification
    are true. -/
theorem along_settling {S : Setup} {s : State} (sender : Address) {request : Request}
    {check : Check} (hcheck : request.check? = some check)
    {transaction : Api.TransactionAnswer} {events : List Api.EventInfo}
    (htrue : truthful s.chain check.transactionHash transaction events = true) (k n : Nat) :
    (Api.machine S.config).Along (fun t a => State.truthful { s with server := t } a = true)
      s.server
      (Api.settlingRun sender request transaction events s.server.exchanges.length k n) := by
  refine (Api.machine S.config).along_mono (fun t a ha => ?_)
    (Api.settlingRun_verifies S.config sender request transaction events k n)
  cases a with
  | verify i transaction' events' =>
    obtain ⟨rfl, rfl, e, he, hrequest⟩ := ha i _ _ rfl
    simp only [State.truthful, he, Option.bind_some, hrequest, hcheck]
    exact htrue
  | _ => rfl

/-- A request of one of the two parties, or a step that requests lead to. -/
def cooperates (renter host : Address) (a : Api.Action) : Bool :=
  a.internal || a.sender = some renter || a.sender = some host

/-- The parties of the row can bring it to a status, whatever else is going on. -/
structure Reaches (S : Setup) (s : State) (id : String) (row : BookingRow) (status : BookingStatus)
    (t : State) : Prop where
  run : ∃ bs : List Api.Action, (machine S).exec s (bs.map .api) = some t ∧
    ∀ a ∈ bs, cooperates row.renter row.host a = true
  chain : t.chain = s.chain
  stored : ∃ row', t.db.bookings.lookup id = some row' ∧ row.SameTerms row' ∧ row'.status = status

theorem Reaches.trans {S : Setup} {s t u : State} {id : String} {row row' : BookingRow}
    {status status' : BookingStatus} (h : Reaches S s id row status t)
    (hrow' : t.db.bookings.lookup id = some row') (h' : Reaches S t id row' status' u) :
    Reaches S s id row status' u := by
  obtain ⟨x, hx, hterms, -⟩ := h.stored
  obtain rfl : row' = x := Option.some.inj (hrow'.symm.trans hx)
  obtain ⟨bs, hbs, hall⟩ := h.run
  obtain ⟨cs, hcs, hall'⟩ := h'.run
  obtain ⟨y, hy, hterms', hstatus⟩ := h'.stored
  refine ⟨⟨bs ++ cs, ?_, fun a ha => ?_⟩, h'.chain.trans h.chain, y, hy, hterms.trans hterms', hstatus⟩
  · rw [List.map_append]
    exact (machine S).exec_trans hbs hcs
  · rcases List.mem_append.mp ha with ha | ha
    · exact hall a ha
    · rw [← hterms.renter, ← hterms.host]
      exact hall' a ha

theorem Reaches.backed {S : Setup} {s t : State} {id : String} {row : BookingRow}
    {status : BookingStatus} (h : Reaches S s id row status t) (hs : Backed S s) : Backed S t := by
  obtain ⟨bs, hbs, -⟩ := h.run
  exact (machine S).exec_invariant backed_step hbs hs

/-! ## One move by an event -/

/-- Booking `id` can still record the hash. -/
structure Available (s : State) (id hash : String) : Prop where
  unrecorded : ∀ q ∈ s.db.payments, q.hash ≠ hash
  unclaimed : ∀ i p, s.server.flow.call? i = some p → p.holdsHash hash = true → p.op.id = id

/-- A booking has no two events of one kind. -/
theorem shown_unique {contract : Address} {l : Ledger} (h : Chronicled contract l)
    {name id hash hash' : String} (hs : Shown l.escrow.events name id hash)
    (hs' : Shown l.escrow.events name id hash') : hash = hash' := by
  obtain ⟨e, he, hname, hid, rfl⟩ := hs
  obtain ⟨e', he', hname', hid', rfl⟩ := hs'
  have hsame : e.event.bookingId = e'.event.bookingId := idText_inj (hid.trans hid'.symm)
  obtain ⟨b, a, hb, ha, hmem⟩ := h.booking_of_event he hsame
  obtain ⟨b', _, hb', -, hmem'⟩ := h.booking_of_event he' rfl
  obtain rfl : b = b' := Option.some.inj (hb.symm.trans hb')
  have hstory := h.told _ b a hb ha
  have hevent : e.event = e'.event :=
    event_of_name (hstory.subset (List.mem_map_of_mem hmem))
      (hstory.subset (List.mem_map_of_mem hmem')) (hname.trans hname'.symm)
  rw [h.unique he' he hevent]

/-- A call with a payment that starts where a request does is for the same status. -/
theorem target_of_locked {request : Request} {check : Check} (hcheck : request.check? = some check)
    (v : Verification) {c : Call} (hpay : c.op.payment.isSome = true)
    (hsource : c.op.source = (check.call v).op.source) :
    c.op.target = (check.call v).op.target ∧ (check.call v).op.payment.isSome = true := by
  cases request <;> cases hcheck <;> cases c <;>
    simp_all [Call.op, Api.Workflow.fund, Api.Workflow.checkIn, Api.Workflow.refund,
      Api.Workflow.confirm]

/-- A call that has recorded its hash has locked its row. -/
theorem holdsRow_of_holdsHash {p : Api.Workflow.Process} {hash : String}
    (h : p.holdsHash hash = true) : p.holdsRow p.op.id = true := by
  obtain ⟨hpay, -, hpaid⟩ := Api.Workflow.holdsHash_iff.mp h
  refine Api.Workflow.holdsRow_iff.mpr ⟨hpay, rfl, ?_⟩
  revert hpaid
  cases p.stage <;> simp [Api.Workflow.Stage.hasPaid, Api.Workflow.Stage.hasUpdated]

section Moves

variable {S : Setup} {s : State} (h : Backed S s) {request : Request} {check : Check}
  {row : BookingRow}
include h

/-- What is left after a move: the way is free, and one hash is spent. -/
structure Settled (s : State) (id hash : String) (t : State) : Prop where
  unlocked : t.server.flow.rowLocked id = false
  available : ∀ hash', hash' ≠ hash → Available s id hash' → Available t id hash'
  challenges : t.db.challenges = s.db.challenges

/-- No open transaction has locked the row: the request is served. -/
theorem Backed.settle_unlocked (sender : Address) (hvalid : request.valid = true)
    (hcheck : request.check? = some check) (hrow : s.db.bookings.lookup request.id = some row)
    (hsender : sender = row.renter ∨ sender = row.host)
    (hadmits : ∀ v, (check.call v).op.admits row = true)
    (hshown : Shown s.log check.expectedEvent row.onChainBookingId check.transactionHash)
    (havailable : ∀ v, (check.call v).op.payment.isSome = true →
      Available s request.id check.transactionHash)
    (hunlocked : s.server.flow.rowLocked request.id = false) :
    ∃ v t, Reaches S s request.id row (check.call v).op.target t ∧
      Settled s request.id check.transactionHash t := by
  obtain ⟨hhash, x, -, -, -, htrue, hv⟩ := verified_of_shown h.logged S.configured hshown
  let v : Verification := ⟨x.ledger, x.createdAt.toNat * 1000⟩
  obtain ⟨hid, hcallHash, -, hverified⟩ := call_of_check hcheck v
  have hclear : Clear s.server.flow (check.call v) row := by
    refine ⟨hid ▸ hrow, hadmits v, hcallHash ▸ hhash, hverified, hid ▸ hunlocked, ?_, ?_⟩
    · intro hpay
      rw [hcallHash]
      refine Api.Workflow.hashTaken_eq_false.mpr fun i p hp => ?_
      by_contra hholds
      -- a call that holds the hash is for this booking, and so has locked its row
      simp only [Bool.not_eq_false] at hholds
      have hlocked := holdsRow_of_holdsHash hholds
      rw [(havailable v hpay).unclaimed i p hp hholds,
        Api.Workflow.rowLocked_eq_false.mp hunlocked i p hp] at hlocked
      cases hlocked
    · intro hpay
      rw [hcallHash]
      exact (havailable v hpay).unrecorded
  obtain ⟨n, server, hrun, hdone⟩ :=
    Api.serve_settling S.config sender hvalid hcheck (h.spelled _ row hrow) hrow hv hclear
  have htruthful := along_settling (S := S) sender hcheck htrue s.server.flow.calls.length n
  obtain ⟨b, hcalls⟩ := hdone.calls
  refine ⟨v, { s with server := server }, ⟨⟨_, api_exec hrun htruthful, fun a ha => ?_⟩, rfl, ?_⟩,
    ?_, ?_, hdone.challenges⟩
  · rcases Api.mem_settlingRun ha with rfl | hinternal
    · rcases hsender with rfl | rfl <;> simp [cooperates, Api.Action.sender]
    · simp [cooperates, hinternal]
  · refine ⟨(check.call v).op.apply row, ?_, Api.Workflow.sameTerms_apply _ row, rfl⟩
    show server.flow.db.bookings.lookup request.id = _
    rw [hdone.bookings, hid, lookup_insert, if_pos rfl]
  · refine Api.Workflow.rowLocked_eq_false.mpr fun i p hp => ?_
    rw [Api.Workflow.State.call?, hcalls] at hp
    rcases getElem?_of_concat hp with hold | ⟨-, rfl⟩
    · exact Api.Workflow.rowLocked_eq_false.mp hunlocked i p hold
    · simp [Api.Workflow.Process.holdsRow, Api.Workflow.Stage.hasUpdated]
  · intro hash' hne hold
    refine ⟨fun q hq => ?_, fun i p hp hholds => ?_⟩
    · rcases hdone.payments q hq with hq | ⟨-, hq⟩
      · exact hold.unrecorded q hq
      · rw [hq, hcallHash]
        exact hne.symm
    · have hp' : server.flow.calls[i]? = some p := hp
      rw [hcalls] at hp'
      rcases getElem?_of_concat hp' with hp' | ⟨-, rfl⟩
      · exact hold.unclaimed i p hp' hholds
      · simp [Api.Workflow.Process.holdsHash, Api.Workflow.Stage.hasPaid] at hholds

/-- An open transaction has locked the row: it is for the same event, and commits. -/
theorem Backed.settle_locked (hcheck : request.check? = some check)
    (hrow : s.db.bookings.lookup request.id = some row)
    (hadmits : ∀ v, (check.call v).op.admits row = true)
    (hshown : Shown s.log check.expectedEvent row.onChainBookingId check.transactionHash)
    (havailable : ∀ v, (check.call v).op.payment.isSome = true →
      Available s request.id check.transactionHash)
    {k : Nat} {p : Api.Workflow.Process} (hp : s.server.flow.call? k = some p)
    (hholds : p.holdsRow request.id = true) :
    ∃ v t, Reaches S s request.id row (check.call v).op.target t ∧
      Settled s request.id check.transactionHash t := by
  let v : Verification := ⟨0, 0⟩
  obtain ⟨hpay, hid, hopen⟩ := Api.Workflow.holdsRow_iff.mp hholds
  obtain ⟨x, hx, hadmitted⟩ := h.paid.coherent.admitted k p request.id hp hholds
  obtain rfl : row = x := Option.some.inj (hrow.symm.trans hx)
  have hsource : p.op.source = (check.call v).op.source :=
    (Api.Workflow.admits_iff.mp hadmitted).1.symm.trans (Api.Workflow.admits_iff.mp (hadmits v)).1
  obtain ⟨htarget, hpays⟩ := target_of_locked hcheck v hpay hsource
  have havail := havailable v hpays
  -- its hash is that of the event
  obtain ⟨-, -, hevidence, -⟩ := call_of_check hcheck v
  have hhash : p.op.hash = check.transactionHash := by
    obtain ⟨x, hx, hown⟩ := (h.calls k p hp).evident check.expectedEvent (by
      rw [Option.mem_def]
      exact (congrArg evidence htarget).trans hevidence)
    rw [show p.call.op.id = request.id from hid, hrow, Option.some.injEq] at hx
    subst hx
    exact shown_unique h.logged.chronicled hown hshown
  obtain ⟨kind, w, missing, hpayment⟩ : ∃ kind w missing,
      p.op.payment = some ⟨kind, some w, missing⟩ := by
    obtain ⟨pay, hsome⟩ := Option.isSome_iff_exists.mp hpay
    obtain ⟨kind, _ | w, missing⟩ := pay
    · have hnone := (h.calls k p hp).verified _ hsome
      cases hnone
    · exact ⟨kind, w, missing, hsome⟩
  -- nobody else holds it
  have hexclusive : ∀ j q, j ≠ k → s.server.flow.call? j = some q → q.holdsRow request.id = false := by
    intro j q hj hq
    by_contra hother
    exact hj (h.paid.coherent.exclusive j k q p request.id hq hp (by simpa using hother) hholds)
  have hfree : ∀ j q, j ≠ k → s.server.flow.call? j = some q → q.holdsHash p.op.hash = false := by
    intro j q hj hq
    by_contra hother
    have hother' : q.holdsHash p.op.hash = true := by simpa using hother
    have hsame := havail.unclaimed j q hq (hhash ▸ hother')
    have hrow' := holdsRow_of_holdsHash hother'
    rw [hsame, hexclusive j q hj hq] at hrow'
    cases hrow'
  obtain ⟨n, b, hrun⟩ := Api.Workflow.commit_call S.config.runtime S.config.network hp hpayment hopen
    hfree (hhash ▸ havail.unrecorded)
  have hexec := Api.drive_exec S.config hrun
  have htruthful : (Api.machine S.config).Along
      (fun t a => State.truthful { s with server := t } a = true) s.server
      (List.replicate n (.advance k)) := by
    refine (Api.machine S.config).along_mono (fun t a ha => ?_)
      ((Api.machine S.config).along_of_forall (Q := fun a => a = .advance k) s.server
        fun a ha => List.eq_of_mem_replicate ha)
    rw [ha]
    rfl
  refine ⟨v, _, ⟨⟨_, api_exec hexec htruthful, fun a ha => ?_⟩, rfl, ?_⟩, ?_, ?_,
    Api.Workflow.commit_challenges⟩
  · rw [List.eq_of_mem_replicate ha]
    rfl
  · refine ⟨p.op.apply row, ?_, Api.Workflow.sameTerms_apply _ row, htarget⟩
    show (p.op.commit b kind w s.db).bookings.lookup request.id = _
    rw [Api.Workflow.commit_bookings (hid ▸ hrow) hadmitted, hid, lookup_insert, if_pos rfl]
  · refine Api.Workflow.rowLocked_eq_false.mpr fun j q hq => ?_
    rcases Api.Workflow.call?_of_move hp rfl hq with ⟨-, rfl⟩ | ⟨hj, hq⟩
    · simp [Api.Workflow.Process.holdsRow, Api.Workflow.Stage.hasUpdated]
    · exact hexclusive j q hj hq
  · intro hash' hne hold
    refine ⟨fun q hq => ?_, fun j q hq hheld => ?_⟩
    · have hq' : q ∈ (p.op.commit b kind w s.db).payments := hq
      rw [Api.Workflow.commit_payments, List.mem_append, List.mem_singleton] at hq'
      rcases hq' with hq' | rfl
      · exact hold.unrecorded q hq'
      · rw [show (p.op.paymentRow b kind w).hash = p.op.hash from rfl, hhash]
        exact hne.symm
    · rcases Api.Workflow.call?_of_move hp rfl hq with ⟨-, rfl⟩ | ⟨-, hq⟩
      · simp [Api.Workflow.Process.holdsHash, Api.Workflow.Stage.hasPaid] at hheld
      · exact hold.unclaimed j q hq hheld

/-- A row moves by an event whose hash it can record. -/
theorem Backed.settle (sender : Address) (hvalid : request.valid = true)
    (hcheck : request.check? = some check) (hrow : s.db.bookings.lookup request.id = some row)
    (hsender : sender = row.renter ∨ sender = row.host)
    (hadmits : ∀ v, (check.call v).op.admits row = true)
    (hshown : Shown s.log check.expectedEvent row.onChainBookingId check.transactionHash)
    (havailable : ∀ v, (check.call v).op.payment.isSome = true →
      Available s request.id check.transactionHash) :
    ∃ v t, Reaches S s request.id row (check.call v).op.target t ∧
      Settled s request.id check.transactionHash t := by
  cases hlocked : s.server.flow.rowLocked request.id with
  | false =>
    exact h.settle_unlocked sender hvalid hcheck hrow hsender hadmits hshown havailable hlocked
  | true =>
    obtain ⟨p, hp, hholds⟩ := List.any_eq_true.mp hlocked
    obtain ⟨k, hk⟩ := List.mem_iff_getElem?.mp hp
    exact h.settle_locked hcheck hrow hadmits hshown havailable hk hholds

end Moves

/-- Nothing is in the way of a check-in with a proof that can be stored. -/
theorem clear_checkIn {S : Setup} {s : State} {id nonce : String} {row : BookingRow} {now : Int}
    (hrow : s.db.bookings.lookup id = some row) (hstatus : row.status = .funded)
    (hunlocked : s.server.flow.rowLocked id = false)
    (hcarries : Api.CheckIn.Carries S.config.runtime
      (Api.CheckIn.newPayload id row.renter nonce now)) :
    Clear s.server.flow (.checkIn id row.renter (S.config.runtime.sha256 nonce)) row :=
  ⟨hrow, Api.Workflow.admits_iff.mpr ⟨hstatus, fun p hp => by cases hp; rfl⟩, hcarries.digest,
    fun pay hpay => (by cases hpay), hunlocked, fun hpay => (by cases hpay),
    fun hpay => (by cases hpay)⟩

/-! ## The moves of a row -/

section Rows

variable {S : Setup} {s : State} (h : Backed S s) {id hash : String} {row : BookingRow}
  (hrow : s.db.bookings.lookup id = some row)
include h hrow

theorem Backed.reach_funded (hstatus : row.status = .pendingFunding)
    (hshown : Shown s.log "booking_funded" row.onChainBookingId hash)
    (havailable : Available s id hash) :
    ∃ t, Reaches S s id row .funded t ∧ Settled s id hash t := by
  have hvalid : (Request.fund id hash).valid = true :=
    (verified_of_shown h.logged S.configured hshown).1
  obtain ⟨v, t, hreach, hsettled⟩ := h.settle row.renter hvalid rfl hrow (.inl rfl)
    (fun v => Api.Workflow.admits_iff.mpr ⟨hstatus, fun p hp => by cases hp⟩) hshown
    fun _ _ => havailable
  exact ⟨t, hreach, hsettled⟩

theorem Backed.reach_refunded (hstatus : row.status = .funded)
    (hshown : Shown s.log "deposit_refunded" row.onChainBookingId hash)
    (havailable : Available s id hash) : ∃ t, Reaches S s id row .refunded t := by
  have hhash := (verified_of_shown h.logged S.configured hshown).1
  have hvalid : (Request.cancel id row.renter hash).valid = true := by
    simp [Request.valid, (h.texts id row hrow).1, hhash]
  obtain ⟨v, t, hreach, -⟩ := h.settle row.renter hvalid rfl hrow (.inl rfl)
    (fun v => Api.Workflow.admits_iff.mpr ⟨hstatus, fun p hp => by cases hp; rfl⟩) hshown
    fun _ _ => havailable
  exact ⟨t, hreach⟩

theorem Backed.reach_completed (hstatus : row.status = .checkedIn)
    (hshown : Shown s.log "visit_confirmed" row.onChainBookingId hash) :
    ∃ t, Reaches S s id row .completed t := by
  have hhash := (verified_of_shown h.logged S.configured hshown).1
  have hvalid : (Request.confirm id row.host hash).valid = true := by
    simp [Request.valid, (h.texts id row hrow).2, hhash]
  obtain ⟨v, t, hreach, -⟩ := h.settle row.host hvalid rfl hrow (.inr rfl)
    (fun v => Api.Workflow.admits_iff.mpr ⟨hstatus, fun p hp => by cases hp; rfl⟩) hshown
    fun _ hpay => by cases hpay
  exact ⟨t, hreach⟩

/-- A nonce that the host can issue a challenge with. -/
def FreshNonce (S : Setup) (s : State) (id : String) (renter : Address) (nonce : String) (now : Int) :
    Prop :=
  Api.CheckIn.Carries S.config.runtime (Api.CheckIn.newPayload id renter nonce now) ∧
    s.db.challenges.lookup (Api.CheckIn.hashNonce S.config.runtime nonce) = none

/-- The host issues a challenge and the renter checks in with it. -/
theorem Backed.reach_checkedIn (hstatus : row.status = .funded)
    (hunlocked : s.server.flow.rowLocked id = false) {nonce : String} {now : Int}
    (hfresh : FreshNonce S s id row.renter nonce now) :
    ∃ t, Reaches S s id row .checkedIn t := by
  obtain ⟨hrenter, hhost⟩ := h.texts id row hrow
  obtain ⟨hcarries, hnew⟩ := hfresh
  have hclear := clear_checkIn hrow hstatus hunlocked hcarries
  obtain ⟨n, server, challenges, hrun, hdone⟩ := Api.serve_presence S.config row.host row.renter now
    hhost hrenter (h.spelled id row hrow) hcarries hnew hclear
  have htruthful : (Api.machine S.config).Along
      (fun t a => State.truthful { s with server := t } a = true) s.server
      (Api.presenceRun S.config.runtime row.host row.renter row.host row.renter id nonce now
        s.server.exchanges.length s.server.flow.calls.length n) := by
    refine along_truthful s.server fun a ha => ?_
    rcases Api.mem_presenceRun ha with ⟨request, rfl⟩ | ⟨request, rfl⟩ | ⟨-, hne⟩
    · simp
    · simp
    · exact hne
  refine ⟨_, ⟨_, api_exec hrun htruthful, fun a ha => ?_⟩, rfl, ?_⟩
  · rcases Api.mem_presenceRun ha with ⟨request, rfl⟩ | ⟨request, rfl⟩ | ⟨hinternal, -⟩
    · simp [cooperates, Api.Action.sender]
    · simp [cooperates, Api.Action.sender]
    · simp [cooperates, hinternal]
  · refine ⟨(Api.Workflow.checkIn id row.renter (S.config.runtime.sha256 nonce)).apply row, ?_,
      Api.Workflow.sameTerms_apply _ row, rfl⟩
    show server.flow.db.bookings.lookup id = _
    rw [hdone.bookings]
    exact AList.lookup_insert _

end Rows

/-! ## Reconciliation -/

/-- The events of a booking are in the log under its id. -/
theorem shown_of_told {l : Ledger} {n : UInt64} {ev : ContractEvent} {id : String}
    (hid : idText n = id) (hev : ev ∈ (eventsOf n l.escrow.events).map LoggedEvent.event) :
    ∃ hash, Shown l.escrow.events (eventName ev) id hash := by
  obtain ⟨e, he, rfl⟩ := List.mem_map.mp hev
  obtain ⟨hlog, hn⟩ := List.mem_filter.mp he
  exact ⟨e.txHash, e, hlog, rfl, (congrArg idText (of_decide_eq_true hn)).trans hid, rfl⟩

section Booking

variable {S : Setup} {s : State} (h : Backed S s) {n : UInt64} {b : Booking} {id : String}
  (hid : idText n = id) (hb : s.chain.ledger.escrow.booking? n = some b)
  (hfunded : s.chain.ledger.HasFunded n)
include h hid hb hfunded

/-- The events of a booking that was funded. -/
theorem Backed.shows : (∃ hash, Shown s.log "booking_funded" id hash) ∧
    (b.state = .refunded → ∃ hash, Shown s.log "deposit_refunded" id hash) ∧
    (b.state = .released → (∃ hash, Shown s.log "visit_confirmed" id hash) ∧
      ∀ hash, ¬ Shown s.log "deposit_refunded" id hash) := by
  obtain ⟨e, he, amount, hevent⟩ := hfunded
  obtain ⟨b', a, hb', ha, hmem⟩ := h.logged.chronicled.booking_of_event (n := n) he (by rw [hevent]; rfl)
  obtain rfl : b = b' := Option.some.inj (hb.symm.trans hb')
  have hstory := h.logged.chronicled.told n b a hb ha
  have hin : b.funded ∈ (eventsOf n s.log).map LoggedEvent.event := by
    have hsame : e.event = b.funded := event_of_name (hstory.subset (List.mem_map_of_mem hmem))
      (by simp [Booking.events]) (by rw [hevent]; rfl)
    exact hsame ▸ List.mem_map_of_mem hmem
  obtain ⟨hrefunded, hreleased⟩ := hstory.shows hin
  refine ⟨shown_of_told hid hin, fun hs => shown_of_told hid (hrefunded hs).1, fun hs =>
    ⟨shown_of_told hid (hreleased hs).1, fun hash hshown => (hreleased hs).2 ?_⟩⟩
  obtain ⟨m, x, _, e', hm, hx, -, he', hevent', -⟩ := told_of_shown
    h.logged.chronicled Booking.refunded (fun b => by simp [Booking.events]) (fun b => rfl) hshown
  obtain rfl : m = n := idText_inj (hm.trans hid.symm)
  obtain rfl : b = x := Option.some.inj (hb.symm.trans hx)
  exact hevent' ▸ List.mem_map_of_mem he'

end Booking

/-- A funded row is locked only by a refund, for which the log has the event. -/
theorem Backed.unlocked_of_released {S : Setup} {s : State} (h : Backed S s) {id : String}
    {row : BookingRow} (hrow : s.db.bookings.lookup id = some row) (hstatus : row.status = .funded)
    (hnone : ∀ hash, ¬ Shown s.log "deposit_refunded" row.onChainBookingId hash) :
    s.server.flow.rowLocked id = false := by
  refine Api.Workflow.rowLocked_eq_false.mpr fun i p hp => ?_
  by_contra hlocked
  have hholds : p.holdsRow id = true := by simpa using hlocked
  obtain ⟨hpay, hid, -⟩ := Api.Workflow.holdsRow_iff.mp hholds
  obtain ⟨x, hx, hadmits⟩ := h.paid.coherent.admitted i p id hp hholds
  obtain rfl : row = x := Option.some.inj (hrow.symm.trans hx)
  have hsource : p.op.source = .funded := (Api.Workflow.admits_iff.mp hadmits).1.symm.trans hstatus
  have htarget : p.op.target = .refunded :=
    (target_of_locked (rfl : (Request.cancel id "" "").check? = some _) ⟨0, 0⟩ hpay hsource).1
  obtain ⟨y, hy, hshown⟩ := (h.calls i p hp).evident "deposit_refunded" (by
    rw [show p.call.op.target = .refunded from htarget]
    rfl)
  rw [show p.call.op.id = id from hid, hrow, Option.some.injEq] at hy
  subst hy
  exact hnone _ hshown

/-- The hash of each event with this name about the row can still be recorded for it. -/
def Recordable (s : State) (id : String) (row : BookingRow) (name : String) : Prop :=
  ∀ hash, Shown s.log name row.onChainBookingId hash → Available s id hash

/-- **Every settled deposit can be reconciled**, where the hashes that the row has yet to record
    are free for it. After any run of the system, for a row that is not settled and whose
    booking on chain was funded: if that booking is `Refunded`, the row is not checked in, and
    a row that still awaits funding was not funded and refunded in one transaction, then the
    parties can bring the row to `REFUNDED`; if it is `Released`, to `COMPLETED`. -/
theorem settled_deposits_reconcile (S : Setup) (s₀ s : State) (as : List Action)
    (h₀ : FreshSystem S s₀) (hrun : (machine S).exec s₀ as = some s) (id : String)
    (row : BookingRow) (hrow : s.db.bookings.lookup id = some row)
    (hopen : row.status ≠ .refunded ∧ row.status ≠ .completed) (n : UInt64) (b : Booking)
    (hid : idText n = row.onChainBookingId) (hb : s.chain.ledger.escrow.booking? n = some b)
    (hfunded : s.chain.ledger.HasFunded n)
    (hfund : row.status = .pendingFunding → Recordable s id row "booking_funded") :
    (b.state = .refunded → row.status ≠ .checkedIn → Recordable s id row "deposit_refunded" →
      (row.status = .pendingFunding → ∀ hash,
        Shown s.log "booking_funded" row.onChainBookingId hash →
        ¬ Shown s.log "deposit_refunded" row.onChainBookingId hash) →
      ∃ t, Reaches S s id row .refunded t) ∧
    (b.state = .released →
      (row.status ≠ .checkedIn → ∃ nonce now, FreshNonce S s id row.renter nonce now) →
      ∃ t, Reaches S s id row .completed t) := by
  have h := backed_of_exec h₀ hrun
  obtain ⟨⟨F, hF⟩, hrefunded, hreleased⟩ := h.shows hid hb hfunded
  -- a row that awaits funding is funded first, and the other hashes stay free
  have hfirst : row.status = .pendingFunding → ∃ t row', Reaches S s id row .funded t ∧
      Settled s id F t ∧ Backed S t ∧ t.db.bookings.lookup id = some row' ∧
      row'.status = .funded ∧ row.SameTerms row' ∧ t.log = s.log := by
    intro hstatus
    obtain ⟨t, hreach, hsettled⟩ := h.reach_funded hrow hstatus hF (hfund hstatus F hF)
    obtain ⟨row', hrow', hterms, hstatus'⟩ := hreach.stored
    exact ⟨t, row', hreach, hsettled, hreach.backed h, hrow', hstatus', hterms,
      congrArg (fun c => c.ledger.escrow.events) hreach.chain⟩
  have hcases : row.status = .pendingFunding ∨ row.status = .funded ∨ row.status = .checkedIn := by
    have hmem := h.paid.coherent.lifecycle id row hrow
    simp only [Api.lifecycle, List.mem_cons, List.not_mem_nil, or_false] at hmem
    rcases hmem with hs | hs | hs | hs | hs
    · exact .inl hs
    · exact .inr (.inl hs)
    · exact .inr (.inr hs)
    · exact absurd hs hopen.2
    · exact absurd hs hopen.1
  constructor
  · intro hstate hpresent hfree hapart
    obtain ⟨R, hR⟩ := hrefunded hstate
    rcases hcases with hs | hs | hs
    · obtain ⟨t, row', hreach, hsettled, ht, hrow', hs', hterms, hlog⟩ := hfirst hs
      have hne : R ≠ F := fun heq => hapart hs F hF (heq ▸ hR)
      have hR' : Shown t.log "deposit_refunded" row'.onChainBookingId R := by
        rw [hlog, hterms.onChainBookingId]
        exact hR
      obtain ⟨u, hlast⟩ := ht.reach_refunded hrow' hs' hR' (hsettled.available R hne (hfree R hR))
      exact ⟨u, hreach.trans hrow' hlast⟩
    · exact h.reach_refunded hrow hs hR (hfree R hR)
    · exact absurd hs hpresent
  · intro hstate hfresh
    obtain ⟨⟨C, hC⟩, hnone⟩ := hreleased hstate
    -- from a funded row, by a check-in
    have hpresent : ∀ t row', Backed S t → t.log = s.log → t.db.bookings.lookup id = some row' →
        row'.status = .funded → row.SameTerms row' →
        (∃ nonce now, FreshNonce S t id row'.renter nonce now) →
        ∃ u, Reaches S t id row' .completed u := by
      intro t row' ht hlog hrow' hs' hterms hnonces
      obtain ⟨nonce, now, hnonce⟩ := hnonces
      have hunlocked : t.server.flow.rowLocked id = false := by
        refine ht.unlocked_of_released hrow' hs' fun hash => ?_
        rw [hlog, hterms.onChainBookingId]
        exact hnone hash
      obtain ⟨u, hreach⟩ := ht.reach_checkedIn hrow' hs' hunlocked hnonce
      obtain ⟨x, hx, hterms', hx'⟩ := hreach.stored
      have hlog' : u.log = s.log :=
        (congrArg (fun c => c.ledger.escrow.events) hreach.chain).trans hlog
      have hC' : Shown u.log "visit_confirmed" x.onChainBookingId C := by
        rw [hlog', hterms'.onChainBookingId, hterms.onChainBookingId]
        exact hC
      obtain ⟨w, hlast⟩ := (hreach.backed ht).reach_completed hx hx' hC'
      exact ⟨w, hreach.trans hx hlast⟩
    rcases hcases with hs | hs | hs
    · obtain ⟨t, row', hreach, hsettled, ht, hrow', hs', hterms, hlog⟩ := hfirst hs
      obtain ⟨nonce, now, hcarries, hnew⟩ := hfresh (by rw [hs]; decide)
      obtain ⟨u, hlast⟩ := hpresent t row' ht hlog hrow' hs' hterms ⟨nonce, now,
        hterms.renter ▸ hcarries, hsettled.challenges ▸ hnew⟩
      exact ⟨u, hreach.trans hrow' hlast⟩
    · exact hpresent s row h rfl hrow hs (Api.sameTerms_refl row) (hfresh (by rw [hs]; decide))
    · exact h.reach_completed hrow hs hC

/-- The deposit goes in and comes back, and the API is not told. -/
def untoldRefund : List Action :=
  setUpEscrow :: bookBoth ++ [fundOnChain, cancelOnChain]

/-- The deposit goes in and is released at the visit, and the API is not told. -/
def untoldRelease : List Action :=
  setUpEscrow :: bookBoth ++ [fundOnChain, .chain (.close 1893492000 9),
    callOf "76a1bf015f022a01565fa5cb38757614d91f181de38a73ef73551e9ef1b0c865" "host"
      (.confirmVisit "host" 4261549847195894357)]

theorem recordable_of_untold {s : State} (hpayments : s.db.payments = [])
    (hcalls : s.server.flow.calls = []) (id : String) (row : BookingRow) (name : String) :
    Recordable s id row name := by
  refine fun hash _ => ⟨fun q hq => ?_, fun i p hp => ?_⟩
  · rw [hpayments] at hq
    cases hq
  · rw [Api.Workflow.State.call?, hcalls] at hp
    cases hp

theorem settled_deposits_reconcile_untold :
    (∃ s row t, (machine sampleSetup).exec sampleStart untoldRefund = some s ∧
      s.db.bookings.lookup "3b241101-e2bb-4255-8caf-4136c566a962" = some row ∧
      row.status = .pendingFunding ∧
      Reaches sampleSetup s "3b241101-e2bb-4255-8caf-4136c566a962" row .refunded t) ∧
    (∃ s row t, (machine sampleSetup).exec sampleStart untoldRelease = some s ∧
      s.db.bookings.lookup "3b241101-e2bb-4255-8caf-4136c566a962" = some row ∧
      row.status = .pendingFunding ∧
      Reaches sampleSetup s "3b241101-e2bb-4255-8caf-4136c566a962" row .completed t) := by
  constructor
  · obtain ⟨s, row, b, hrun, hrow, hstatus, hid, hb, hstate, hpayments, hcalls, hlog⟩ : ∃ s row b,
        (machine sampleSetup).exec sampleStart untoldRefund = some s ∧
        s.db.bookings.lookup "3b241101-e2bb-4255-8caf-4136c566a962" = some row ∧
        row.status = .pendingFunding ∧ row.onChainBookingId = idText 4261549847195894357 ∧
        s.chain.ledger.escrow.booking? 4261549847195894357 = some b ∧ b.state = .refunded ∧
        s.db.payments = [] ∧ s.server.flow.calls = [] ∧
        s.log = [
          ⟨"5a9392784e07eb40cfb3f4a464e0a91451f573eeb59d600983e190bd8aaddca6", 7,
            .bookingCreated 4261549847195894357 "renter" "host" 1000000⟩,
          ⟨"2514e1475addffb378fdb07e9a1092176c09dbfbd129ebcaacd0099818d2534c", 7,
            .bookingFunded 4261549847195894357 1000000⟩,
          ⟨"369d8e27270351b658b102785616797dab62b659058ca2494872b6bd0181aca4", 7,
            .depositRefunded 4261549847195894357 1000000⟩] :=
      ⟨_, _, _, rfl, rfl, rfl, by decide +kernel, rfl, rfl, rfl, rfl, rfl⟩
    have he : (⟨"2514e1475addffb378fdb07e9a1092176c09dbfbd129ebcaacd0099818d2534c", 7,
        .bookingFunded 4261549847195894357 1000000⟩ : LoggedEvent) ∈ s.log := by
      rw [hlog]
      exact .tail _ (.head _)
    have hfree := recordable_of_untold hpayments hcalls "3b241101-e2bb-4255-8caf-4136c566a962" row
    obtain ⟨t, hreach⟩ := (settled_deposits_reconcile sampleSetup sampleStart s untoldRefund
      fresh_sampleStart hrun _ row hrow (by rw [hstatus]; decide) _ b hid.symm hb ⟨_, he, _, rfl⟩
      fun _ => hfree _).1 hstate (by rw [hstatus]; decide) (hfree _) fun _ hash hF hR => by
        obtain ⟨e, he, hname, -, rfl⟩ := hF
        obtain ⟨e', he', hname', -, hsame⟩ := hR
        have hapart : ∀ e ∈ s.log, ∀ e' ∈ s.log, eventName e.event = "booking_funded" →
            eventName e'.event = "deposit_refunded" → e'.txHash ≠ e.txHash := by
          rw [hlog]
          decide +kernel
        exact hapart e he e' he' hname hname' hsame
    exact ⟨s, row, t, hrun, hrow, hstatus, hreach⟩
  · obtain ⟨s, row, b, hrun, hrow, hstatus, hrenter, hid, hb, hstate, hpayments, hcalls, hnonces,
        e, he, hevent⟩ : ∃ s row b,
        (machine sampleSetup).exec sampleStart untoldRelease = some s ∧
        s.db.bookings.lookup "3b241101-e2bb-4255-8caf-4136c566a962" = some row ∧
        row.status = .pendingFunding ∧ row.renter = "renter" ∧
        row.onChainBookingId = idText 4261549847195894357 ∧
        s.chain.ledger.escrow.booking? 4261549847195894357 = some b ∧ b.state = .released ∧
        s.db.payments = [] ∧ s.server.flow.calls = [] ∧ s.db.challenges = ∅ ∧
        ∃ e ∈ s.log, e.event = .bookingFunded 4261549847195894357 1000000 :=
      ⟨_, _, _, rfl, rfl, rfl, rfl, by decide +kernel, rfl, rfl, rfl, rfl, rfl,
        ⟨"2514e1475addffb378fdb07e9a1092176c09dbfbd129ebcaacd0099818d2534c", 7,
          .bookingFunded 4261549847195894357 1000000⟩, .tail _ (.head _), rfl⟩
    have hfree := recordable_of_untold hpayments hcalls "3b241101-e2bb-4255-8caf-4136c566a962" row
    have hnonce : FreshNonce sampleSetup s "3b241101-e2bb-4255-8caf-4136c566a962" row.renter
        Api.Workflow.samplePayload.nonce 1893488400000 := by
      refine ⟨?_, by rw [hnonces]; rfl⟩
      rw [hrenter]
      exact Api.carries_sample
    obtain ⟨t, hreach⟩ := (settled_deposits_reconcile sampleSetup sampleStart s untoldRelease
      fresh_sampleStart hrun _ row hrow (by rw [hstatus]; decide) _ b hid.symm hb
      ⟨e, he, _, hevent⟩ fun _ => hfree _).2 hstate fun _ => ⟨_, _, hnonce⟩
    exact ⟨s, row, t, hrun, hrow, hstatus, hreach⟩

end PovDeposit.Joint
