/-
  Who it takes to check a booking in.

  Nothing ties the `actor` of a check-in-challenge body to the sender of the request, so the
  renter alone can put the host's address there, receive the token, and hand it back. Where
  every challenge request with the host's address was sent by the host, a booking whose host
  sends no request is never checked in: `Barred` is the invariant, over the exchanges, the
  stored challenges, the calls and the rows.
-/
import PovDeposit.Api.Requests

namespace PovDeposit.Api

open PovDeposit.Lib PovDeposit.Lib.Outcome
open PovDeposit.Contract (Address)

/-- The condition on a step: a check-in-challenge request that `requireBooking` serves under
    the address of the booking's host was sent by that host. -/
def challengeByHost (R : Runtime) (s : Server) : Action → Bool
  | .find i =>
      match s.exchange? i with
      | some ⟨sender, .checkInChallenge id actor, _⟩ =>
          match (R.uuid id).bind s.db.bookings.lookup with
          | some row => actor ≠ row.host || sender = row.host
          | none => true
      | _ => true
  | _ => true

/-- The booking that a call would check in. -/
def Workflow.Call.presence : Workflow.Call → Option String
  | .checkIn id _ _ => some id
  | _ => none

/-- The booking that an exchange is on its way to check in. -/
def Exchange.presence (e : Exchange) : Option String :=
  match e.phase with
  | .found _ =>
      match e.request with
      | .checkInChallenge id _ => some id
      | _ => none
  | .issuing payload => some payload.bookingId
  | .spending _ => some e.request.id
  | .ready call => call.presence
  | _ => none

theorem check_presence {request : Request} {check : Check} (h : request.check? = some check)
    (v : Workflow.Verification) : (check.call v).presence = none := by
  cases request with
  | checkInChallenge => cases h
  | checkIn => cases h
  | _ =>
    cases h
    rfl

/-- The text names a booking that has another host. -/
def Elsewhere (R : Runtime) (host : Address) (flow : Workflow.State) (text : String) : Prop :=
  ∃ row, flow.db.Names R text row ∧ row.host ≠ host

structure Barred (R : Runtime) (host : Address) (s : Server) : Prop where
  coherent : Workflow.Coherent s.flow
  senders : ∀ i e, s.exchange? i = some e → e.sender ≠ host
  exchanges : ∀ i e id, s.exchange? i = some e → e.presence = some id →
    Elsewhere R host s.flow id
  challenges : ∀ n c, s.db.challenges.lookup n = some c → Elsewhere R host s.flow c.bookingId
  calls : ∀ i p id, s.flow.call? i = some p → p.call.presence = some id →
    ∃ row, s.db.bookings.lookup id = some row ∧ row.host ≠ host
  rows : ∀ id row, s.db.bookings.lookup id = some row → row.host = host →
    row.status ≠ .checkedIn ∧ row.status ≠ .completed

theorem barred_of_fresh {R : Runtime} {host : Address} {s : Server} (h : Fresh s) :
    Barred R host s := by
  have hexchange : ∀ i e, s.exchange? i ≠ some e := by
    intro i e he
    rw [Server.exchange?, h.exchanges] at he
    cases he
  refine ⟨Workflow.coherent_of_fresh h.flow, fun i e he => absurd he (hexchange i e),
    fun i e _ he => absurd he (hexchange i e), ?_, ?_, ?_⟩
  · intro n c hc
    rw [Server.db, h.flow.challenges, AList.lookup_empty] at hc
    cases hc
  · intro i p _ hp
    rw [Workflow.State.call?, h.flow.calls] at hp
    cases hp
  · intro id row hrow
    rw [Server.db, h.flow.bookings, AList.lookup_empty] at hrow
    cases hrow

section Steps

variable {C : Config} {s s' : Server} {host : Address}

theorem elsewhere_step {flow flow' : Workflow.State} {R : Runtime} {network : String}
    {a : Workflow.Action} {text : String} (hc : Workflow.Coherent flow)
    (hstep : Workflow.step R network flow a = some flow') (h : Elsewhere R host flow text) :
    Elsewhere R host flow' text := by
  obtain ⟨row, ⟨id, hid, hrow⟩, hne⟩ := h
  obtain ⟨row', hrow', hterms⟩ := Workflow.terms_step hc hstep hrow
  exact ⟨row', ⟨id, hid, hrow'⟩, hterms.host ▸ hne⟩

theorem elsewhere_uuid {R : Runtime} {flow : Workflow.State} {text id : String}
    (hid : R.uuid text = some id) (h : Elsewhere R host flow text) : Elsewhere R host flow id := by
  obtain ⟨row, ⟨key, hkey, hrow⟩, hne⟩ := h
  obtain rfl : id = key := Option.some.inj (hid.symm.trans hkey)
  exact ⟨row, ⟨id, R.uuid_idem _ _ hid, hrow⟩, hne⟩

/-- A call that was entered for a check-in has the id that the database read in the text. -/
theorem presence_read {R : Runtime} {c : Workflow.Call} {id : String}
    (h : (c.read R).presence = some id) :
    ∃ text, c.presence = some text ∧ (R.uuid text).getD text = id := by
  cases c with
  | checkIn text actor proof =>
    cases h
    exact ⟨text, rfl, rfl⟩
  | _ => cases h

/-- A step of the workflow, with what the exchanges and the new challenges must satisfy. -/
theorem Barred.flow_step (h : Barred C.runtime host s) {a : Workflow.Action}
    (hstep : Workflow.step C.runtime C.network s.flow a = some s'.flow)
    (hcall : ∀ c id, a = .call c → c.presence = some id → Elsewhere C.runtime host s.flow id)
    (hchallenges : ∀ wallets challenges n c, a = .others wallets challenges →
      challenges.lookup n = some c → Elsewhere C.runtime host s.flow c.bookingId)
    (hexchanges : ∀ i e, s'.exchange? i = some e → e.sender ≠ host ∧
      ∀ id, e.presence = some id → Elsewhere C.runtime host s.flow id) :
    Barred C.runtime host s' := by
  have hkeep : ∀ id, Elsewhere C.runtime host s.flow id → Elsewhere C.runtime host s'.flow id :=
    fun _ => elsewhere_step h.coherent hstep
  refine ⟨Workflow.coherent_step _ _ _ h.coherent hstep, fun i e he => (hexchanges i e he).1,
    fun i e id he hid => hkeep id ((hexchanges i e he).2 id hid), ?_, ?_, ?_⟩
  · intro n c hc
    rcases Workflow.challenges_step hstep with hsame | ⟨wallets, challenges, ha, hnew⟩
    · rw [Server.db, hsame] at hc
      exact hkeep _ (h.challenges n c hc)
    · rw [Server.db, hnew] at hc
      exact hkeep _ (hchallenges wallets challenges n c ha hc)
  · intro i p id hp hid
    obtain ⟨row, hrow, hne⟩ : ∃ row, s.db.bookings.lookup id = some row ∧ row.host ≠ host := by
      rcases Workflow.call_of_step hstep hp with ⟨q, hq, hsame⟩ | ⟨c, ha, rfl⟩
      · exact h.calls i q id hq (hsame ▸ hid)
      · obtain ⟨text, htext, rfl⟩ := presence_read hid
        obtain ⟨row, ⟨key, hkey, hrow⟩, hne⟩ := hcall c text ha htext
        rw [hkey]
        exact ⟨row, hrow, hne⟩
    obtain ⟨row', hrow', hterms⟩ := Workflow.terms_step h.coherent hstep hrow
    exact ⟨row', hrow', hterms.host ▸ hne⟩
  · intro id row' hrow' hhost
    cases hold : s.flow.db.bookings.lookup id with
    | none =>
      rw [Workflow.new_row_step h.coherent hstep hold hrow']
      exact ⟨by decide, by decide⟩
    | some row =>
      obtain ⟨x, hx, hcases⟩ := Workflow.row_step h.coherent hstep hold
      obtain rfl : row' = x := by simpa [Server.db, hx] using hrow'.symm
      rcases hcases with rfl | ⟨i, p, -, hp, hid, hadmits, rfl⟩
      · exact h.rows id row' hold hhost
      · -- the call that wrote the row was a check-in of another host's booking, or it came
        -- after one
        have hsource := (Workflow.admits_iff.mp hadmits).1
        have hrow := h.rows id row hold hhost
        cases hcall : p.call with
        | fund => simp [Workflow.Process.op, hcall, Workflow.Call.op, Workflow.fund, Workflow.Operation.apply]
        | refund => simp [Workflow.Process.op, hcall, Workflow.Call.op, Workflow.refund, Workflow.Operation.apply]
        | confirm =>
          rw [Workflow.Process.op, hcall] at hsource
          exact absurd hsource hrow.1
        | checkIn id' actor proof =>
          rw [Workflow.Process.op, hcall] at hid
          obtain rfl : id' = id := hid
          obtain ⟨y, hy, hne⟩ := h.calls i p id' hp (by rw [hcall]; rfl)
          obtain rfl : row = y := by simpa [hold] using hy
          exact absurd hhost hne

/-- The exchanges after exchange `i` moved to another phase. -/
theorem Barred.turn_exchanges (h : Barred C.runtime host s) {i : Nat} {e e' : Exchange}
    (he : s.exchange? i = some e) (hexchanges : s'.exchanges = (s.turn i e').exchanges)
    (hsender : e'.sender = e.sender)
    (hpresence : ∀ id, e'.presence = some id → Elsewhere C.runtime host s.flow id) :
    ∀ j x, s'.exchange? j = some x → x.sender ≠ host ∧
      ∀ id, x.presence = some id → Elsewhere C.runtime host s.flow id := by
  intro j x hx
  rcases exchange?_of_turn he hexchanges hx with ⟨-, rfl⟩ | ⟨-, hx⟩
  · exact ⟨hsender ▸ h.senders i e he, hpresence⟩
  · exact ⟨h.senders j x hx, fun id => h.exchanges j x id hx⟩

/-- The phase a quiet step leads to. -/
theorem Barred.turn (h : Barred C.runtime host s) {a : Action} {i : Nat} {e : Exchange} {phase : Phase}
    (he : s.exchange? i = some e) (hturn : Turn C s a i e phase)
    (hchallenge : challengeByHost C.runtime s a = true) (id : String)
    (hid : ({ e with phase := phase } : Exchange).presence = some id) :
    Elsewhere C.runtime host s.flow id := by
  cases hturn with
  | found b row ha hkind hphase hrow hb hhost =>
    cases hrequest : e.request with
    | checkInChallenge id' actor =>
      simp only [Exchange.presence, hrequest, Option.some.injEq] at hid
      subst hid
      rw [hrequest] at hrow
      refine ⟨row, hrow, ?_⟩
      -- the request was served under the host's address, so it is the host's
      have hactor : row.host = actor := by
        rw [← hhost id' actor hrequest, hb]
        rfl
      have hsender : e.sender = row.host := by
        obtain ⟨sender, request, phase⟩ := e
        subst hrequest
        simp only [Request.id] at hrow
        obtain ⟨key, hkey, hrow⟩ := hrow
        simpa [challengeByHost, ha, he, hkey, hrow, hactor] using hchallenge
      exact hsender ▸ h.senders i e he
    | _ => simp [Exchange.presence, hrequest] at hid
  | verified transaction events check b v ha hcheck =>
    have hnone := check_presence hcheck v
    simp [Exchange.presence, hnone] at hid
  | issuing id' actor b now nonce hrequest hphase =>
    simp only [Exchange.presence, CheckIn.newPayload, Option.some.injEq] at hid
    exact h.exchanges i e id he (by simp [Exchange.presence, hrequest, hphase, hid])
  | spending id' actor token payload challenge hrequest hphase hfound hbooking =>
    simp only [Exchange.presence, hrequest, Request.id, Option.some.injEq] at hid
    rw [← hid, ← hbooking]
    exact h.challenges _ challenge hfound
  | rejected => cases hid

theorem barred_step (s : Server) (a : Action) (s' : Server) (h : Barred C.runtime host s)
    (hcond : challengeByHost C.runtime s a = true ∧ a.sender ≠ some host)
    (hstep : step C s a = some s') : Barred C.runtime host s' := by
  have hkeep : ∀ i e, s.exchange? i = some e → e.sender ≠ host ∧
      ∀ id, e.presence = some id → Elsewhere C.runtime host s.flow id :=
    fun i e he => ⟨h.senders i e he, fun id => h.exchanges i e id he⟩
  cases serves_of_step hstep with
  | drive _ fa flow ha hflow =>
    refine h.flow_step hflow ?_ ?_ hkeep
    · rintro c id rfl
      cases a <;> simp [Action.drives] at ha
    · rintro wallets challenges n c rfl
      cases a <;> simp [Action.drives] at ha
  | refused => exact h
  | receive sender request phase hphase =>
    refine ⟨h.coherent, ?_, ?_, h.challenges, h.calls, h.rows⟩
    · intro i e he
      rcases getElem?_of_concat he with he | ⟨-, rfl⟩
      · exact h.senders i e he
      · rintro rfl
        exact hcond.2 rfl
    · intro i e id he hid
      rcases getElem?_of_concat he with he | ⟨-, rfl⟩
      · exact h.exchanges i e id he hid
      · subst hphase
        cases hvalid : request.valid <;> simp [Exchange.presence, hvalid] at hid
  | turn _ i e phase he hturn =>
    have hall : ∀ j x, (s.turn i { e with phase := phase }).exchange? j = some x →
        x.sender ≠ host ∧ ∀ id, x.presence = some id → Elsewhere C.runtime host s.flow id :=
      h.turn_exchanges he rfl rfl (h.turn he hturn hcond.1)
    exact ⟨h.coherent, fun j x hx => (hall j x hx).1, fun j x id hx => (hall j x hx).2 id,
      h.challenges, h.calls, h.rows⟩
  | store i e payload t key he hphase hkey hnew flow hflow =>
    have hpayload : Elsewhere C.runtime host s.flow payload.bookingId :=
      h.exchanges i e _ he (by simp [Exchange.presence, hphase])
    refine h.flow_step hflow ?_ ?_
      (h.turn_exchanges he rfl rfl ?_)
    · intro c id ha
      cases ha
    · intro wallets challenges n c ha hc
      cases ha
      rcases lookup_of_insert hc with ⟨-, rfl⟩ | ⟨-, hold⟩
      · exact elsewhere_uuid hkey hpayload
      · exact h.challenges n c hold
    · intro id hid
      cases hid
  | spend i now e id actor token payload c he hrequest hphase hfound hunspent flow hflow =>
    have hbooking : Elsewhere C.runtime host s.flow id :=
      h.exchanges i e id he (by simp [Exchange.presence, hphase, hrequest, Request.id])
    refine h.flow_step hflow ?_ ?_
      (h.turn_exchanges he rfl rfl ?_)
    · intro d id' ha
      cases ha
    · intro wallets challenges n d ha hd
      cases ha
      rcases lookup_of_insert hd with ⟨-, rfl⟩ | ⟨-, hold⟩
      · exact h.challenges _ c hfound
      · exact h.challenges n d hold
    · intro id' hid
      cases hid
      exact hbooking
  | forward i e call he hphase flow hflow =>
    refine h.flow_step hflow ?_ ?_
      (h.turn_exchanges he rfl rfl ?_)
    · intro c id ha hid
      cases ha
      exact h.exchanges i e id he (by simpa [Exchange.presence, hphase] using hid)
    · intro wallets challenges n c ha
      cases ha
    · intro id hid
      cases hid
  | auth sender action wallets auth flow hflow =>
    refine h.flow_step hflow ?_ ?_ hkeep
    · intro c id ha
      cases ha
    · intro wallets' challenges n c ha hc
      cases ha
      exact h.challenges n c hc

end Steps

/-- **Check-in needs the host, if challenge requests come from who they name.** In a run in
    which every challenge request served under the address of a booking's host was sent by
    that host, a booking whose host sends no request is never checked in. -/
theorem check_in_needs_host (C : Config) (s₀ s : Server) (as : List Action) (h₀ : Fresh s₀)
    (hrun : (machine C).exec s₀ as = some s)
    (hcond : (machine C).Along (fun s a => challengeByHost C.runtime s a = true) s₀ as) (id : String)
    (row : BookingRow) (hrow : s.db.bookings.lookup id = some row)
    (hsilent : ∀ a ∈ as, a.sender ≠ some row.host) :
    row.status ≠ .checkedIn ∧ row.status ≠ .completed := by
  have h : Barred C.runtime row.host s := (machine C).exec_invariant_along barred_step hrun
    ((machine C).along_and hcond ((machine C).along_of_forall s₀ hsilent)) (barred_of_fresh h₀)
  exact h.rows id row hrow rfl

/-- `bookRequest` and `fundRequest`, then a challenge request of the renter's that is refused. -/
def lawfulRun : List Action :=
  bookRequest :: fundRequest ++
    [.receive "renter" (.checkInChallenge "3b241101-e2bb-4255-8caf-4136c566a962" "renter"), .find 1]

theorem check_in_needs_host_refused :
    ∃ s row, (machine sampleConfig).exec listedServer lawfulRun = some s ∧
      s.db.bookings.lookup "3b241101-e2bb-4255-8caf-4136c566a962" = some row ∧
      row.host = "host" ∧ row.status ≠ .checkedIn := by
  obtain ⟨s, row, hrun, hrow, hhost⟩ : ∃ s row,
      (machine sampleConfig).exec listedServer lawfulRun = some s ∧
      s.db.bookings.lookup "3b241101-e2bb-4255-8caf-4136c566a962" = some row ∧
      row.host = "host" := ⟨_, _, rfl, rfl, rfl⟩
  have hcond : (machine sampleConfig).Along
      (fun s a => challengeByHost sampleConfig.runtime s a = true) listedServer lawfulRun := by
    decide +kernel
  have hsilent : ∀ a ∈ lawfulRun, a.sender ≠ some row.host := by
    rw [hhost]
    decide +kernel
  exact ⟨s, row, hrun, hrow, hhost, (check_in_needs_host sampleConfig listedServer s lawfulRun
    fresh_listedServer hrun hcond _ row hrow hsilent).1⟩

/-- The renter checks in without the host: the challenge request names the host and comes
    from the renter. -/
theorem check_in_without_host :
    ∃ as s row, (machine sampleConfig).exec listedServer as = some s ∧
      s.db.bookings.lookup "3b241101-e2bb-4255-8caf-4136c566a962" = some row ∧
      row.host = "host" ∧ (∀ a ∈ as, a.sender = none ∨ a.sender = some "renter") ∧
      row.status = .checkedIn := by
  obtain ⟨i, k, n, t, row, hrun, hhost, hrow⟩ := presence_sample
  refine ⟨_, t, _, hrun, hrow, hhost, ?_, rfl⟩
  · intro a ha
    rcases List.mem_append.mp ha with ha | ha
    · have hfirst : ∀ b ∈ bookRequest :: fundRequest, b.sender = none ∨ b.sender = some "renter" := by
        decide
      exact hfirst a ha
    · rcases mem_presenceRun ha with ⟨request, rfl⟩ | ⟨request, rfl⟩ | ⟨hinternal, -⟩
      · exact .inr rfl
      · exact .inr rfl
      · exact .inl (sender_of_internal hinternal)

end PovDeposit.Api
