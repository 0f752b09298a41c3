/-
  Which transactions of a booking can be seen.

  The hashes of a booking are read off its payment rows. `fund` and `refund` write such a row
  together with the status, `confirm` writes none: the transaction that released the deposit
  is in the status history, which no route returns. The service in memory keeps it.
  `transactions_visible_iff` sets the two beside each other over a run of the API, and traces
  each hash back to the request that had it verified. The service in memory is asked with the
  id as the database spells it.
-/
import PovDeposit.Api.Memory
import PovDeposit.Api.ProofHash

namespace PovDeposit.Api

open PovDeposit.Lib PovDeposit.Lib.Outcome

/-- What the service in memory is asked along a step of the API. -/
def served (C : Config) (s : Server) (a : Action) : List Memory.Action :=
  match a.drives C.runtime with
  | some fa => Memory.served C.runtime C.network s.flow fa
  | none => []

/-- The event that the transaction of a call must have. -/
def Workflow.Call.event : Workflow.Call → Option String
  | .fund _ _ _ => some "booking_funded"
  | .checkIn _ _ _ => none
  | .refund _ _ _ _ => some "deposit_refunded"
  | .confirm _ _ _ => some "visit_confirmed"

/-- The action by which the handler that goes on to call `c` has verified the transaction of
    `c`: it has the event, for the booking with this on-chain id. -/
def Verifies (C : Config) (c : Workflow.Call) (onChainBookingId event : String) (s : Server)
    (a : Action) : Prop :=
  ∃ i transaction events e check v, a = .verify i transaction events ∧ s.exchange? i = some e ∧
    e.request.check? = some check ∧ (check.call v).read C.runtime = c ∧
    verifyEvent C.contractId transaction events c.op.hash onChainBookingId event = .ok v

/-- Booking `b` was moved to `target` by a call with this hash, whose transaction the API had
    verified to have the event for `b`. -/
def MovedBy (C : Config) (s₀ : Server) (as : List Action) (s : Server) (b : Workflow.Booking)
    (target : BookingStatus) (event hash : String) : Prop :=
  ∃ k p, s.flow.call? k = some p ∧ p.durable = true ∧ p.op.id = b.id ∧ p.op.target = target ∧
    p.op.hash = hash ∧ (machine C).Sometime (Verifies C p.call b.onChainBookingId event) s₀ as

/-- The two transactions of booking `b` are there, the ones that were verified for it and the
    ones that the service in memory has. -/
structure Visible (C : Config) (s₀ : Server) (as : List Action) (s : Server)
    (b : Workflow.Booking) (m : Memory.Booking) : Prop where
  funded : b.state ∈ [.funded, .checkedIn, .completed, .refunded] →
    ∃ hash, b.fundingTransactionHash = some hash ∧
      MovedBy C s₀ as s b .funded "booking_funded" hash
  completed : b.state = .completed → ∃ hash, b.settlementTransactionHash = some hash ∧
    MovedBy C s₀ as s b .completed "visit_confirmed" hash
  refunded : b.state = .refunded → ∃ hash, b.settlementTransactionHash = some hash ∧
    MovedBy C s₀ as s b .refunded "deposit_refunded" hash
  funding : b.fundingTransactionHash = m.fundingTransactionHash
  settlement : b.settlementTransactionHash = m.settlementTransactionHash

/-! ## Where a call comes from -/

/-- The booking of an exchange is in the database. -/
def Exchange.Reads (R : Runtime) (db : Db) (e : Exchange) : Prop :=
  match e.phase with
  | .found b => ∃ row, db.Names R e.request.id row ∧ row.onChainBookingId = b.onChainBookingId
  | .ready c => c.event.isSome = true → ∃ row, db.Names R c.op.id row
  | _ => True

structure Known (R : Runtime) (s : Server) : Prop where
  coherent : Workflow.Coherent s.flow
  exchanges : ∀ i e, s.exchange? i = some e → e.Reads R s.db
  calls : ∀ k p, s.flow.call? k = some p → p.call.event.isSome = true →
    ∃ row, s.db.bookings.lookup p.op.id = some row

theorem known_of_fresh {R : Runtime} {s : Server} (h : Fresh s) : Known R s := by
  refine ⟨Workflow.coherent_of_fresh h.flow, fun i e he => ?_, fun k p hp => ?_⟩
  · rw [Server.exchange?, h.exchanges] at he
    cases he
  · rw [Workflow.State.call?, h.flow.calls] at hp
    cases hp

theorem reads_of_keeps {R : Runtime} {db db' : Db} (h : db.Keeps db') {e : Exchange}
    (he : e.Reads R db) : e.Reads R db' := by
  obtain ⟨sender, request, phase⟩ := e
  cases phase with
  | found b =>
    obtain ⟨row, ⟨id, hid, hrow⟩, honChain⟩ := he
    obtain ⟨row', hrow', hterms⟩ := h.rows id row hrow
    exact ⟨row', ⟨id, hid, hrow'⟩, hterms.onChainBookingId.trans honChain⟩
  | ready c =>
    intro htx
    obtain ⟨row, id, hid, hrow⟩ := he htx
    obtain ⟨row', hrow', -⟩ := h.rows id row hrow
    exact ⟨row', id, hid, hrow'⟩
  | _ => trivial

/-- The call that follows a verification is one for the booking of its request. -/
theorem check_call {request : Request} {check : Check} (h : request.check? = some check)
    (v : Workflow.Verification) : (check.call v).op.id = request.id ∧
      (check.call v).op.hash = check.transactionHash ∧
      (check.call v).event = some check.expectedEvent := by
  cases request <;> cases h <;> exact ⟨rfl, rfl, rfl⟩

/-- Reading the id of a call changes neither its transaction nor the event of it. -/
theorem event_read (R : Runtime) (c : Workflow.Call) :
    (c.read R).event = c.event ∧ (c.read R).op.hash = c.op.hash := by
  cases c <;> exact ⟨rfl, rfl⟩

section Steps

variable {C : Config} {s s' : Server}

/-- The exchanges after exchange `i` became `e'`. -/
theorem reads_turn (h : Known C.runtime s) {i : Nat} {e e' : Exchange} {t : Server}
    (he : s.exchange? i = some e) (hkeeps : s.db.Keeps t.db)
    (hexchanges : t.exchanges = (s.turn i e').exchanges) (he' : e'.Reads C.runtime t.db) :
    ∀ j x, t.exchange? j = some x → x.Reads C.runtime t.db := by
  intro j x hx
  rcases exchange?_of_turn he hexchanges hx with ⟨-, rfl⟩ | ⟨-, hx⟩
  · exact he'
  · exact reads_of_keeps hkeeps (h.exchanges j x hx)

theorem Known.turn (h : Known C.runtime s) {a : Action} {i : Nat} {e : Exchange} {phase : Phase}
    (he : s.exchange? i = some e) (ht : Turn C s a i e phase) :
    ({ e with phase := phase } : Exchange).Reads C.runtime s.db := by
  cases ht with
  | found b row ha hkind hphase hrow hb =>
    exact ⟨row, hrow, by rw [hb]; rfl⟩
  | verified transaction events check b v ha hcheck hphase =>
    intro _
    have hfound := h.exchanges i e he
    rw [Exchange.Reads, hphase] at hfound
    obtain ⟨row, hrow, -⟩ := hfound
    exact ⟨row, by rw [(check_call hcheck v).1]; exact hrow⟩
  | issuing => trivial
  | spending => trivial
  | rejected => trivial

/-- The calls after a step of the workflow. -/
theorem Known.flow (h : Known C.runtime s) {fa : Workflow.Action} {flow : Workflow.State}
    (hflow : Workflow.step C.runtime C.network s.flow fa = some flow)
    (hnew : ∀ c, fa = .call c → c.event.isSome = true →
      ∃ row, s.db.Names C.runtime c.op.id row) :
    ∀ k p, flow.call? k = some p → p.call.event.isSome = true →
      ∃ row, flow.db.bookings.lookup p.op.id = some row := by
  intro k p hp hevent
  have hrow : ∃ row, s.db.bookings.lookup p.op.id = some row := by
    rcases Workflow.call_of_step hflow hp with ⟨q, hq, hsame⟩ | ⟨c, ha, rfl⟩
    · have hold := h.calls k q hq
      rw [Workflow.Process.op, hsame] at hold
      exact hold hevent
    · obtain ⟨row, id, hid, hrow⟩ := hnew c ha ((event_read C.runtime c).1 ▸ hevent)
      exact ⟨row, (Workflow.read_of_uuid hid).symm ▸ hrow⟩
  obtain ⟨row, hrow⟩ := hrow
  obtain ⟨row', hrow', -⟩ := Workflow.terms_step h.coherent hflow hrow
  exact ⟨row', hrow'⟩

theorem known_step (s : Server) (a : Action) (s' : Server) (h : Known C.runtime s)
    (hstep : step C s a = some s') : Known C.runtime s' := by
  have hserves := serves_of_step hstep
  have hkeeps := keeps_of_serves h.coherent hserves
  have hcoherent := coherent_of_step h.coherent hstep
  have hkeep : ∀ i e, s.exchange? i = some e → e.Reads C.runtime s'.db :=
    fun i e he => reads_of_keeps hkeeps (h.exchanges i e he)
  cases hserves with
  | drive _ fa flow ha hflow =>
    refine ⟨hcoherent, hkeep, h.flow hflow fun c hfa => ?_⟩
    subst hfa
    cases a <;> simp [Action.drives] at ha
  | refused => exact h
  | receive sender request phase hphase =>
    refine ⟨hcoherent, fun i e he => ?_, h.calls⟩
    rcases getElem?_of_concat he with he | ⟨-, rfl⟩
    · exact hkeep i e he
    · subst hphase
      cases request.valid <;> trivial
  | turn _ i e phase he ht =>
    exact ⟨hcoherent, reads_turn h he hkeeps rfl (h.turn he ht), h.calls⟩
  | store i e payload t id he hphase hid hnew flow hflow =>
    exact ⟨hcoherent, reads_turn h he hkeeps rfl trivial, h.flow hflow fun c hfa => (by cases hfa)⟩
  | spend i now e id actor token payload c he hrequest hphase hfound hunspent flow hflow =>
    refine ⟨hcoherent, reads_turn h he hkeeps rfl fun hevent => ?_, h.flow hflow fun c hfa => (by cases hfa)⟩
    cases hevent
  | forward i e call he hphase flow hflow =>
    refine ⟨hcoherent, reads_turn h he hkeeps rfl trivial, h.flow hflow fun c hfa hevent => ?_⟩
    cases hfa
    have hready := h.exchanges i e he
    rw [Exchange.Reads, hphase] at hready
    exact hready hevent
  | auth sender action wallets auth flow hflow =>
    exact ⟨hcoherent, hkeep, h.flow hflow fun c hfa => (by cases hfa)⟩

/-- Call `c` has been made, or is about to be. -/
def Underway (R : Runtime) (c : Workflow.Call) (s : Server) : Prop :=
  (∃ i e c', s.exchange? i = some e ∧ e.phase = .ready c' ∧ c'.read R = c) ∨
    ∃ k p, s.flow.call? k = some p ∧ p.call = c

/-- Call `c` is under way, for a booking with this on-chain id. -/
def UnderwayFor (R : Runtime) (c : Workflow.Call) (onChainBookingId : String) (s : Server) : Prop :=
  (∃ row, s.db.bookings.lookup c.op.id = some row ∧ row.onChainBookingId = onChainBookingId) ∧
    Underway R c s

theorem Known.row_of_underway (h : Known C.runtime s) {c : Workflow.Call}
    (hevent : c.event.isSome = true) (hc : Underway C.runtime c s) : ∃ row, s.db.bookings.lookup c.op.id = some row := by
  rcases hc with ⟨i, e, c, he, hphase, rfl⟩ | ⟨k, p, hp, rfl⟩
  · have hready := h.exchanges i e he
    rw [Exchange.Reads, hphase] at hready
    obtain ⟨row, id, hid, hrow⟩ := hready ((event_read C.runtime c).1 ▸ hevent)
    exact ⟨row, (Workflow.read_of_uuid hid).symm ▸ hrow⟩
  · exact h.calls k p hp hevent

/-- A call with an event comes under way by the verification of that event. -/
theorem verifies_of_underway {c : Workflow.Call} {event : String} (hevent : c.event = some event)
    (a : Action) (hserves : Serves C s a s') (hnot : ¬ Underway C.runtime c s)
    (hc : Underway C.runtime c s') :
    ∃ i e b transaction events check v, a = .verify i transaction events ∧
      s.exchange? i = some e ∧ e.request.check? = some check ∧
      (check.call v).read C.runtime = c ∧
      e.phase = .found b ∧ verifyEvent C.contractId transaction events c.op.hash
        b.onChainBookingId event = .ok v := by
  have hexchange : ∀ j x, s.exchange? j = some x → ∀ c', x.phase = .ready c' →
      c'.read C.runtime ≠ c :=
    fun j x hx c' hphase hread => hnot (.inl ⟨j, x, c', hx, hphase, hread⟩)
  have hcall : ∀ k p, s.flow.call? k = some p → p.call ≠ c :=
    fun k p hp hcall => hnot (.inr ⟨k, p, hp, hcall⟩)
  -- the exchanges of a step that moves one of them to another phase
  have hturn : ∀ i e e', s.exchange? i = some e →
      (∀ c', e'.phase = .ready c' → c'.read C.runtime ≠ c) →
      ∀ j x, (s.turn i e').exchange? j = some x → ∀ c', x.phase = .ready c' →
        c'.read C.runtime ≠ c := by
    intro i e e' he hne j x hx
    rcases exchange?_of_turn he rfl hx with ⟨-, rfl⟩ | ⟨-, hx⟩
    · exact hne
    · exact hexchange j x hx
  -- the calls of a step of the workflow that is not the arrival of `c`
  have hflow : ∀ fa flow, Workflow.step C.runtime C.network s.flow fa = some flow →
      (∀ c', fa = .call c' → c'.read C.runtime ≠ c) →
      ∀ k p, flow.call? k = some p → p.call ≠ c := by
    intro fa flow hstep hne k p hp
    rcases Workflow.call_of_step hstep hp with ⟨q, hq, hsame⟩ | ⟨c', hfa, rfl⟩
    · exact hsame ▸ hcall k q hq
    · exact hne c' hfa
  have hcontra : (∀ j x, s'.exchange? j = some x → ∀ c', x.phase = .ready c' →
        c'.read C.runtime ≠ c) →
      (∀ k p, s'.flow.call? k = some p → p.call ≠ c) → False := by
    intro hx hp
    rcases hc with ⟨i, e, c', he, hphase, hread⟩ | ⟨k, p, hk, hcallc⟩
    · exact hx i e he c' hphase hread
    · exact hp k p hk hcallc
  cases hserves with
  | drive _ fa flow ha hstep =>
    refine (hcontra hexchange (hflow fa flow hstep ?_)).elim
    rintro c' rfl
    cases a <;> simp [Action.drives] at ha
  | refused => exact (hnot hc).elim
  | receive sender request phase hphase =>
    refine (hcontra (fun j x hx => ?_) hcall).elim
    rcases getElem?_of_concat hx with hx | ⟨-, rfl⟩
    · exact hexchange j x hx
    · subst hphase
      cases request.valid <;> exact fun c' hready => (by cases hready)
  | turn _ i e phase he ht =>
    by_cases hphase : ∃ c', phase = .ready c' ∧ c'.read C.runtime = c
    · obtain ⟨c', rfl, hread⟩ := hphase
      cases ht with
      | verified transaction events check b v ha hcheck hfound hv =>
        obtain ⟨-, hhash, hexpected⟩ := check_call hcheck v
        obtain ⟨hsame, hkept⟩ := event_read C.runtime (check.call v)
        refine ⟨i, e, b, transaction, events, check, v, ha, he, hcheck, hread, hfound, ?_⟩
        rw [← hread, hkept, hhash]
        rw [← hread, hsame, hexpected] at hevent
        exact Option.some.inj hevent ▸ hv
    · exact (hcontra (hturn i e _ he fun c' hready hread => hphase ⟨c', hready, hread⟩) hcall).elim
  | store i e payload t id he hphase hid hnew flow hstep =>
    exact (hcontra (hturn i e _ he fun c' hready => (by cases hready))
      (hflow _ flow hstep fun c' hfa => (by cases hfa))).elim
  | spend i now e id actor token payload ch he hrequest hphase hfound hunspent flow hstep =>
    refine (hcontra (hturn i e _ he ?_) (hflow _ flow hstep fun c' hfa => (by cases hfa))).elim
    rintro c' hready rfl
    cases hready
    cases hevent
  | forward i e call he hphase flow hstep =>
    refine (hcontra (hturn i e _ he fun c' hready => (by cases hready)) (hflow _ flow hstep ?_)).elim
    intro c' hfa
    cases hfa
    exact hexchange i e he call hphase
  | auth sender action wallets auth flow hstep =>
    exact (hcontra hexchange (hflow _ flow hstep fun c' hfa => (by cases hfa))).elim

/-- Every call with an event was verified, for the on-chain id that its booking has at the end. -/
theorem sometime_verified {s₀ s : Server} {as : List Action} (h₀ : Fresh s₀)
    (hrun : (machine C).exec s₀ as = some s) {c : Workflow.Call} {event : String}
    (hevent : c.event = some event) (hc : Underway C.runtime c s) {row : BookingRow}
    (hrow : s.db.bookings.lookup c.op.id = some row) :
    (machine C).Sometime (Verifies C c row.onChainBookingId event) s₀ as := by
  have hout : ¬ UnderwayFor C.runtime c row.onChainBookingId s₀ := by
    rintro ⟨⟨x, hx, -⟩, -⟩
    rw [Server.db, h₀.flow.bookings, AList.lookup_empty] at hx
    cases hx
  refine (machine C).sometime_of_origin known_step ?_ hrun (known_of_fresh h₀) hout
    ⟨⟨row, hrow, rfl⟩, hc⟩
  rintro t a t' hknown hnot hstep ⟨⟨row', hrow', honChain⟩, hc'⟩
  have hserves := serves_of_step hstep
  have hkeeps := keeps_of_serves hknown.coherent hserves
  -- the booking is stored before its calls are made, and keeps its on-chain id
  have hsame : ∀ x, t.db.bookings.lookup c.op.id = some x →
      x.onChainBookingId = row.onChainBookingId := by
    intro x hx
    obtain ⟨y, hy, hterms⟩ := hkeeps.rows _ x hx
    rw [← honChain, Option.some.inj (hrow'.symm.trans hy), hterms.onChainBookingId]
  have hbefore : ¬ Underway C.runtime c t := by
    intro hc
    obtain ⟨x, hx⟩ := hknown.row_of_underway (by rw [hevent]; rfl) hc
    exact hnot ⟨⟨x, hx, hsame x hx⟩, hc⟩
  obtain ⟨i, e, b, transaction, events, check, v, ha, he, hcheck, hcall, hphase, hv⟩ :=
    verifies_of_underway hevent a hserves hbefore hc'
  have hfound := hknown.exchanges i e he
  rw [Exchange.Reads, hphase] at hfound
  obtain ⟨x, ⟨id, hid, hx⟩, hb⟩ := hfound
  have hread : c.op.id = id := by
    rw [← hcall]
    exact Workflow.read_of_uuid ((check_call hcheck v).1.symm ▸ hid)
  rw [← hread] at hx
  refine ⟨i, transaction, events, e, check, v, ha, he, hcheck, hcall, ?_⟩
  rw [← hsame x hx, hb]
  exact hv

/-! ## The two services side by side -/

theorem flow_of_drives {a : Action} {fa : Workflow.Action} (hstep : step C s a = some s')
    (ha : a.drives C.runtime = some fa) :
    Workflow.step C.runtime C.network s.flow fa = some s'.flow := by
  have hdrive : s.drive C fa = some s' := by
    cases a with
    | create sender now uuid body =>
      obtain ⟨input, hparse, rfl⟩ := Option.map_eq_some_iff.mp ha
      simpa [step, hparse] using hstep
    | advance k =>
      cases ha
      exact hstep
    | fail k error =>
      cases ha
      exact hstep
    | stop k =>
      cases ha
      exact hstep
    | _ => cases ha
  obtain ⟨flow, hflow, rfl⟩ := drive_eq_some.mp hdrive
  exact hflow

theorem mirrors_served (s : Server) (a : Action) (s' : Server) (m : Memory.Bookings)
    (h : Memory.Mirrors s.flow m) (hstep : step C s a = some s') :
    ∃ m', (Memory.machine C.runtime).exec m (served C s a) = some m' ∧
      Memory.Mirrors s'.flow m' := by
  -- a step that the service in memory does not see
  have hothers : ∀ fa flow, Workflow.step C.runtime C.network s.flow fa = some flow →
      Memory.served C.runtime C.network s.flow fa = [] → Memory.Mirrors flow m := by
    intro fa flow hfa hserved
    obtain ⟨m', hm', hmirrors⟩ := Memory.mirrors_step _ _ _ m h hfa
    rw [hserved] at hm'
    cases hm'
    exact hmirrors
  cases ha : a.drives C.runtime with
  | some fa =>
    unfold served
    rw [ha]
    exact Memory.mirrors_step _ _ _ m h (flow_of_drives hstep ha)
  | none =>
    unfold served
    rw [ha]
    refine ⟨m, rfl, ?_⟩
    cases serves_of_step hstep with
    | drive _ fa flow hfa => rw [ha] at hfa; cases hfa
    | refused => exact h
    | receive => exact h
    | turn => exact h
    | store i e payload t id he hphase hid hnew flow hflow => exact hothers _ _ hflow rfl
    | spend i now e id actor token payload c he hrequest hphase hfound hunspent flow hflow =>
      exact hothers _ _ hflow rfl
    | forward i e call he hphase flow hflow => exact hothers _ _ hflow rfl
    | auth sender action wallets auth flow hflow => exact hothers _ _ hflow rfl

end Steps

/-- A completed visit has one payment, the funding. -/
theorem settlement_of_completed {flow : Workflow.State} (h : Workflow.Paid flow) {id : String}
    {row : BookingRow} (hrow : flow.db.bookings.lookup id = some row)
    (hstatus : row.status = .completed) :
    (Workflow.load flow.db row).settlementTransactionHash = none := by
  have hdues := h.dues id row hrow
  rw [hstatus, ← h.coherent.keyed id row hrow] at hdues
  obtain ⟨t, ht, hkind, -⟩ := Workflow.over_one hdues
  rw [Memory.load_settlement, ht]
  simp [Memory.settlementOf, hkind]

/-- **Which transactions stay visible.** After any run of the API, hand the requests that it
    made good to the service in memory: all are accepted, and a booking has the same status on
    both sides. Its funding and settlement transactions are visible exactly if the visit is not
    completed. -/
theorem transactions_visible_iff (C : Config) (s₀ s : Server) (as : List Action) (h₀ : Fresh s₀)
    (hrun : (machine C).exec s₀ as = some s) (text : String) (b : Workflow.Booking)
    (hget : Workflow.get C.runtime s.db text = .ok b) :
    ∃ bookings m, (Memory.machine C.runtime).exec ∅ ((machine C).outputs (served C) s₀ as) =
        some bookings ∧ Memory.get bookings b.id = .ok m ∧ m.state = b.state ∧
      (Visible C s₀ as s b m ↔ b.state ≠ .completed) := by
  obtain ⟨row, ⟨id, -, hrow⟩, rfl⟩ := Workflow.get_eq_ok.mp hget
  obtain ⟨bookings, hbookings, hmirrors⟩ := (machine C).exec_outputs mirrors_served hrun
    (Memory.mirrors_of_fresh h₀.flow)
  obtain ⟨m, hm, hagrees⟩ := hmirrors.rows id row hrow
  have hid : row.id = id := hmirrors.paid.coherent.keyed id row hrow
  have hdues := hmirrors.paid.dues id row hrow
  rw [← hid] at hdues
  have hgot : Memory.get bookings row.id = .ok m := by rw [Memory.get, hid, hm]
  refine ⟨bookings, m, hbookings, hgot, hagrees.state, ?_⟩
  -- what a durable call wrote had been verified
  have hmoved : ∀ target event hash, (∀ c : Workflow.Call, c.op.target = target →
      c.event = some event) → Memory.Moved s.flow row.id target hash →
      MovedBy C s₀ as s (Workflow.load s.db row) target event hash := by
    rintro target event hash hevent ⟨k, p, hp, hdurable, hpid, htarget, hhash⟩
    refine ⟨k, p, hp, hdurable, hpid, htarget, hhash, ?_⟩
    have hrow' : s.db.bookings.lookup p.call.op.id = some row := by
      rw [show p.call.op.id = row.id from hpid, hid]
      exact hrow
    exact sometime_verified h₀ hrun (hevent p.call htarget) (.inr ⟨k, p, hp, rfl⟩) hrow'
  have hfunding : (Workflow.load s.db row).fundingTransactionHash =
      Memory.fundingOf (paymentsOf s.db row.id) := Memory.load_funding s.db row
  have hsettlement : (Workflow.load s.db row).settlementTransactionHash =
      Memory.settlementOf (paymentsOf s.db row.id) := Memory.load_settlement s.db row
  constructor
  · intro hvisible hstate
    obtain ⟨hash, hsome, -⟩ := hvisible.completed hstate
    rw [settlement_of_completed hmirrors.paid hrow hstate] at hsome
    cases hsome
  · intro hne
    have hne' : row.status ≠ .completed := hne
    refine ⟨fun hstate => ?_, fun hstate => absurd hstate hne, fun hstate => ?_,
      hfunding.trans hagrees.funding.symm, hsettlement.trans (hagrees.settlement hne').symm⟩
    · have hfund : .fund ∈ dues row.status := by
        have hmem : row.status ∈ [.funded, .checkedIn, .completed, .refunded] := hstate
        simp only [List.mem_cons, List.not_mem_nil, or_false] at hmem
        rcases hmem with h | h | h | h <;> rw [h] <;> decide
      obtain ⟨t, ht, hkind⟩ := hdues.exists_kind hfund
      obtain ⟨hash, hhash⟩ := Memory.fundingOf_of_mem ht hkind
      refine ⟨hash, hfunding.trans hhash, hmoved .funded _ hash ?_
        (hagrees.funded hash (hagrees.funding.trans hhash))⟩
      intro c hc
      cases c <;> first | rfl | cases hc
    · have hstatus : row.status = .refunded := hstate
      have hrefund : .refund ∈ dues row.status := by
        rw [hstatus]
        decide
      obtain ⟨t, ht, hkind⟩ := hdues.exists_kind hrefund
      obtain ⟨hash, hhash⟩ := Memory.settlementOf_of_mem ht (by rw [hkind]; decide)
      have hsettled := hagrees.settled hash ((hagrees.settlement hne').trans hhash)
      rw [hstatus] at hsettled
      refine ⟨hash, hsettlement.trans hhash, hmoved .refunded _ hash ?_ hsettled⟩
      intro c hc
      cases c <;> first | rfl | cases hc

section Sample

open Workflow (sampleRuntime samplePayload Clear)

/-- The funding of a booked slot is visible. -/
theorem transactions_visible_iff_funded : ∃ s b bookings m,
    (machine sampleConfig).exec listedServer (bookRequest :: fundRequest) = some s ∧
    Workflow.get sampleRuntime s.db "3b241101-e2bb-4255-8caf-4136c566a962" = .ok b ∧
    b.state = .funded ∧ Memory.get bookings "3b241101-e2bb-4255-8caf-4136c566a962" = .ok m ∧
    Visible sampleConfig listedServer (bookRequest :: fundRequest) s b m := by
  obtain ⟨s, b, hrun, hget, hstate, hid⟩ : ∃ s b,
      (machine sampleConfig).exec listedServer (bookRequest :: fundRequest) = some s ∧
      Workflow.get sampleRuntime s.db "3b241101-e2bb-4255-8caf-4136c566a962" = .ok b ∧
      b.state = .funded ∧ b.id = "3b241101-e2bb-4255-8caf-4136c566a962" :=
    ⟨_, _, rfl, rfl, rfl, rfl⟩
  obtain ⟨bookings, m, -, hm, -, hiff⟩ := transactions_visible_iff sampleConfig listedServer s
    (bookRequest :: fundRequest) fresh_listedServer hrun _ b hget
  rw [hid] at hm
  exact ⟨s, b, bookings, m, hrun, hget, hstate, hm, hiff.mpr (by rw [hstate]; decide)⟩

/-- The host confirms the visit, and the booking does not say by which transaction. -/
theorem release_unseen : ∃ as s b,
    (machine sampleConfig).exec listedServer (bookRequest :: fundRequest ++ as) = some s ∧
    Workflow.get sampleRuntime s.db "3b241101-e2bb-4255-8caf-4136c566a962" = .ok b ∧
    b.state = .completed ∧ b.settlementTransactionHash = none ∧
    ∀ m, ¬ Visible sampleConfig listedServer (bookRequest :: fundRequest ++ as) s b m := by
  obtain ⟨s, i, k, n, t, row, challenges, hrun, hhost, honChain, hunlocked, hdone⟩ :=
    presence_completed
  let checkedIn : BookingRow := Workflow.Operation.apply (Workflow.checkIn
    "3b241101-e2bb-4255-8caf-4136c566a962" row.renter (sampleRuntime.sha256 samplePayload.nonce)) row
  have hrow : t.db.bookings.lookup "3b241101-e2bb-4255-8caf-4136c566a962" = some checkedIn := by
    rw [Server.db, hdone.bookings]
    exact AList.lookup_insert _
  have hclear : Clear t.flow (.confirm "3b241101-e2bb-4255-8caf-4136c566a962" "host"
      "9d4eed2bbd1d1fd2ff0ba3f0a0ad8bb5ccbc0ae31cb1bd2a13b0dbb5ebf3c1a7") checkedIn := by
    -- a release records no payment
    have hnoPayment : ∀ {P : Prop}, (none : Option Workflow.Payment).isSome = true → P :=
      fun hsome => absurd hsome Bool.false_ne_true
    refine ⟨hrow, Workflow.admits_iff.mpr ⟨rfl, ?_⟩, by decide,
      fun pay hpay => absurd hpay (Option.not_mem_none pay), ?_, hnoPayment, hnoPayment⟩
    · rintro p ⟨⟩
      exact hhost
    · obtain ⟨b, hcalls⟩ := hdone.calls
      unfold Workflow.State.rowLocked at hunlocked ⊢
      rw [hcalls, List.any_append, Bool.or_eq_false_iff]
      exact ⟨hunlocked, rfl⟩
  have hverified : verifyEvent sampleConfig.contractId (.success 9 1893492100)
      [⟨true, "9d4eed2bbd1d1fd2ff0ba3f0a0ad8bb5ccbc0ae31cb1bd2a13b0dbb5ebf3c1a7",
        [.string "visit_confirmed", .integer 4261549847195894357]⟩]
      "9d4eed2bbd1d1fd2ff0ba3f0a0ad8bb5ccbc0ae31cb1bd2a13b0dbb5ebf3c1a7" checkedIn.onChainBookingId
      "visit_confirmed" = .ok ⟨9, 1893492100 * 1000⟩ := by
    rw [show checkedIn.onChainBookingId = "4261549847195894357" from honChain]
    rfl
  have hvalid : (Request.confirm "3b241101-e2bb-4255-8caf-4136c566a962" "host"
      "9d4eed2bbd1d1fd2ff0ba3f0a0ad8bb5ccbc0ae31cb1bd2a13b0dbb5ebf3c1a7").valid = true := by decide
  obtain ⟨n', u, hconfirm, hdone'⟩ :=
    serve_settling sampleConfig "host" hvalid rfl canonical_sample hrow hverified hclear
  have hall := (machine sampleConfig).exec_trans hrun hconfirm
  rw [List.append_assoc] at hall
  let completed : BookingRow := Workflow.Operation.apply (Workflow.confirm
    "3b241101-e2bb-4255-8caf-4136c566a962" "host"
    "9d4eed2bbd1d1fd2ff0ba3f0a0ad8bb5ccbc0ae31cb1bd2a13b0dbb5ebf3c1a7") checkedIn
  have hstored : u.db.bookings.lookup "3b241101-e2bb-4255-8caf-4136c566a962" = some completed := by
    rw [Server.db, hdone'.bookings]
    exact AList.lookup_insert _
  have hget : Workflow.get sampleRuntime u.db "3b241101-e2bb-4255-8caf-4136c566a962" =
      .ok (Workflow.load u.db completed) :=
    Workflow.get_eq_ok.mpr ⟨_, (names_iff canonical_sample).mpr hstored, rfl⟩
  have hpaid : Workflow.Paid u.flow := by
    obtain ⟨fs, hfs⟩ := flow_of_exec hall
    exact Workflow.paid_of_exec fresh_listedServer.flow hfs
  have hnone := settlement_of_completed hpaid hstored rfl
  refine ⟨_, u, _, hall, hget, rfl, hnone, fun m hvisible => ?_⟩
  obtain ⟨hash, hsome, -⟩ := hvisible.completed rfl
  rw [hnone] at hsome
  cases hsome

end Sample

end PovDeposit.Api
