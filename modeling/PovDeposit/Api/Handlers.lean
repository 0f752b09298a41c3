/-
  What a step of the API does.

  `Serves` lists the outcomes of a step. Most of them only move one exchange to its next
  phase (`Turn`); the others are the step of the workflow that they drive, or a write to the
  tables of the check-in and authentication services. `serves_of_step` is the one place where
  the handlers are unfolded. Seen from the workflow, every step of the API is a step of it or
  none (`flow_of_step`), so what every run of the workflow keeps, every run of the API keeps.
-/
import PovDeposit.Api.Server
import PovDeposit.Api.Lifecycle

namespace PovDeposit.Api

open PovDeposit.Lib PovDeposit.Lib.Outcome
open PovDeposit.Contract (Address)

theorem lookUp_eq_ok {R : Runtime} {db : Db} {request : Request} {b : Workflow.Booking} :
    lookUp R db request = .ok b ↔ Workflow.get R db request.id = .ok b ∧
      ∀ id actor, request = .checkInChallenge id actor → b.host = actor := by
  unfold lookUp
  rw [bind_eq_ok]
  cases request with
  | checkInChallenge id actor =>
    simp only [guard_eq_ok, pure_eq_ok, not_not, Request.checkInChallenge.injEq]
    constructor
    · rintro ⟨x, hx, hhost, rfl⟩
      exact ⟨hx, fun _ _ h => hhost.trans h.2⟩
    · rintro ⟨hx, hhost⟩
      exact ⟨b, hx, hhost id actor ⟨rfl, rfl⟩, rfl⟩
  | _ => simp [pure_eq_ok]

/-! ## The exchanges after a step -/

section Exchanges

variable {s s' : Server} {i j : Nat} {e e' x : Exchange}

theorem exchange?_of_turn (he : s.exchange? i = some e)
    (hexchanges : s'.exchanges = (s.turn i e').exchanges) (hx : s'.exchange? j = some x) :
    j = i ∧ x = e' ∨ j ≠ i ∧ s.exchange? j = some x := by
  obtain ⟨hi, -⟩ := List.getElem?_eq_some_iff.mp he
  rw [Server.exchange?, hexchanges] at hx
  exact getElem?_of_set hi hx

theorem exchange?_turn_self (he : s.exchange? i = some e) : (s.turn i e').exchange? i = some e' := by
  obtain ⟨hi, -⟩ := List.getElem?_eq_some_iff.mp he
  rw [Server.exchange?, Server.turn, List.getElem?_set_self hi]

end Exchanges

/-! ## The outcomes of a step -/

/-- The steps of exchange `e` that change no table, with the phase they lead to. -/
inductive Turn (C : Config) (s : Server) (a : Action) (i : Nat) (e : Exchange) : Phase → Prop where
  | found (b : Workflow.Booking) (row : BookingRow) (ha : a = .find i)
      (hkind : ∀ id actor token, e.request ≠ .checkIn id actor token) (hphase : e.phase = .received)
      (hrow : s.db.Names C.runtime e.request.id row) (hb : b = Workflow.load s.db row)
      (hhost : ∀ id actor, e.request = .checkInChallenge id actor → b.host = actor) :
      Turn C s a i e (.found b)
  | verified (transaction : TransactionAnswer) (events : List EventInfo) (check : Check)
      (b : Workflow.Booking) (v : Workflow.Verification) (ha : a = .verify i transaction events)
      (hcheck : e.request.check? = some check) (hphase : e.phase = .found b)
      (hv : verifyEvent C.contractId transaction events check.transactionHash b.onChainBookingId
        check.expectedEvent = .ok v) : Turn C s a i e (.ready (check.call v))
  | issuing (id : String) (actor : Address) (b : Workflow.Booking) (now : Int) (nonce : String)
      (hrequest : e.request = .checkInChallenge id actor) (hphase : e.phase = .found b) :
      Turn C s a i e (.issuing (CheckIn.newPayload id b.renter nonce now))
  | spending (id : String) (actor : Address) (token : String) (payload : CheckInPayload)
      (challenge : CheckInChallenge) (hrequest : e.request = .checkIn id actor token)
      (hphase : e.phase = .received)
      (hfound : s.db.challenges.lookup (CheckIn.hashNonce C.runtime payload.nonce) = some challenge)
      (hbooking : challenge.bookingId = id) : Turn C s a i e (.spending payload)
  | rejected (error : String) (hphase : e.phase.atWork = true) : Turn C s a i e (.rejected error)

/-- The step of the workflow that an action is. -/
def Action.drives (R : Runtime) : Action → Option Workflow.Action
  | .create _ now uuid body => (body.parse R).map fun input => .create now uuid input
  | .advance k => some (.advance k)
  | .fail k error => some (.fail k error)
  | .stop k => some (.stop k)
  | _ => none

inductive Serves (C : Config) (s : Server) : Action → Server → Prop where
  | drive (a : Action) (fa : Workflow.Action) (flow : Workflow.State)
      (ha : a.drives C.runtime = some fa)
      (h : Workflow.step C.runtime C.network s.flow fa = some flow) :
      Serves C s a { s with flow := flow }
  | refused (sender : Address) (now : Int) (uuid : String) (body : CreateInput)
      (hbody : body.parse C.runtime = none) : Serves C s (.create sender now uuid body) s
  | receive (sender : Address) (request : Request) (phase : Phase)
      (hphase : phase = if request.valid then .received else .rejected "Invalid input") :
      Serves C s (.receive sender request)
        { s with exchanges := s.exchanges ++ [⟨sender, request, phase⟩] }
  | turn (a : Action) (i : Nat) (e : Exchange) (phase : Phase) (he : s.exchange? i = some e)
      (h : Turn C s a i e phase) : Serves C s a (s.turn i { e with phase := phase })
  | store (i : Nat) (e : Exchange) (payload : CheckInPayload) (expiresAt : Int) (id : String)
      (he : s.exchange? i = some e) (hphase : e.phase = .issuing payload)
      (hid : C.runtime.uuid payload.bookingId = some id)
      (hnew : s.db.challenges.lookup (CheckIn.hashNonce C.runtime payload.nonce) = none)
      (flow : Workflow.State)
      (hflow : Workflow.step C.runtime C.network s.flow
        (.others s.db.wallets (s.db.challenges.insert (CheckIn.hashNonce C.runtime payload.nonce)
          ⟨id, CheckIn.hashNonce C.runtime payload.nonce, expiresAt, none⟩)) =
        some flow) :
      Serves C s (.store i) (Server.turn { s with flow := flow } i
        { e with phase := .answered (CheckIn.token C.runtime payload) })
  | spend (i : Nat) (now : Int) (e : Exchange) (id : String) (actor : Address) (token : String)
      (payload : CheckInPayload) (challenge : CheckInChallenge) (he : s.exchange? i = some e)
      (hrequest : e.request = .checkIn id actor token) (hphase : e.phase = .spending payload)
      (hfound : s.db.challenges.lookup (CheckIn.hashNonce C.runtime payload.nonce) = some challenge)
      (hunspent : challenge.consumedAt = none) (flow : Workflow.State)
      (hflow : Workflow.step C.runtime C.network s.flow
        (.others s.db.wallets (s.db.challenges.insert (CheckIn.hashNonce C.runtime payload.nonce)
          { challenge with consumedAt := some now })) = some flow) :
      Serves C s (.spend i now) (Server.turn { s with flow := flow } i
        { e with phase := .ready (.checkIn id actor (C.runtime.sha256 payload.nonce)) })
  | forward (i : Nat) (e : Exchange) (call : Workflow.Call) (he : s.exchange? i = some e)
      (hphase : e.phase = .ready call) (flow : Workflow.State)
      (hflow : Workflow.step C.runtime C.network s.flow (.call call) = some flow) :
      Serves C s (.forward i) (Server.turn { s with flow := flow } i { e with phase := .forwarded })
  | auth (sender : Address) (action : WalletAuth.Action)
      (wallets : AList fun _ : Address => String) (auth : WalletAuth.State)
      (flow : Workflow.State)
      (hflow : Workflow.step C.runtime C.network s.flow (.others wallets s.db.challenges) =
        some flow) :
      Serves C s (.auth sender action) { s with flow := flow, auth := auth }

theorem drive_eq_some {C : Config} {s s' : Server} {a : Workflow.Action} :
    s.drive C a = some s' ↔ ∃ flow, Workflow.step C.runtime C.network s.flow a = some flow ∧
      s' = { s with flow := flow } := by
  rw [Server.drive, Option.map_eq_some_iff]
  simp only [eq_comm (b := s')]

section Inversion

variable {C : Config} {s s' : Server} {i : Nat}

/-- The handler settled: it went on with a value, or rejected the request. -/
theorem serves_of_settle {α : Type} {a : Action} {e : Exchange} {next : α → Phase}
    {result : Except String α} (he : s.exchange? i = some e) (hwork : e.phase.atWork = true)
    (hok : ∀ x, result = .ok x → Turn C s a i e (next x)) :
    Serves C s a (s.turn i { e with phase := (Phase.settle next result) }) := by
  cases result with
  | error error => exact .turn a i e _ he (.rejected error hwork)
  | ok x => exact .turn a i e _ he (hok x rfl)

theorem serves_of_find (h : step C s (.find i) = some s') : Serves C s (.find i) s' := by
  obtain ⟨e, he, h⟩ := Option.bind_eq_some_iff.mp h
  split at h
  · cases h
  · rename_i hphase hkind
    cases h
    refine serves_of_settle he (by rw [hphase]; rfl) fun b hb => ?_
    obtain ⟨hget, hhost⟩ := lookUp_eq_ok.mp hb
    obtain ⟨row, hrow, rfl⟩ := Workflow.get_eq_ok.mp hget
    exact .found _ row rfl hkind hphase hrow rfl hhost
  · cases h

theorem serves_of_verify {transaction : TransactionAnswer} {events : List EventInfo}
    (h : step C s (.verify i transaction events) = some s') :
    Serves C s (.verify i transaction events) s' := by
  obtain ⟨e, he, h⟩ := Option.bind_eq_some_iff.mp h
  split at h
  · rename_i check b hcheck hphase
    cases h
    exact serves_of_settle he (by rw [hphase]; rfl) fun v hv =>
      .verified transaction events check b v rfl hcheck hphase hv
  · cases h

theorem serves_of_issue {now : Int} {nonce : String} (h : step C s (.issue i now nonce) = some s') :
    Serves C s (.issue i now nonce) s' := by
  obtain ⟨e, he, h⟩ := Option.bind_eq_some_iff.mp h
  split at h
  · rename_i id actor b hrequest hphase
    cases h
    exact serves_of_settle he (by rw [hphase]; rfl) fun _ _ =>
      .issuing id actor b now nonce hrequest hphase
  · cases h

theorem serves_of_store (h : step C s (.store i) = some s') : Serves C s (.store i) s' := by
  obtain ⟨e, he, h⟩ := Option.bind_eq_some_iff.mp h
  split at h
  · rename_i payload hphase
    split at h
    · rename_i db hdb
      obtain ⟨t, id, -, hid, hnew, rfl⟩ := CheckIn.storeChallenge_eq_ok.mp hdb
      obtain ⟨u, hu, rfl⟩ := Option.map_eq_some_iff.mp h
      obtain ⟨flow, hflow, rfl⟩ := drive_eq_some.mp hu
      exact .store i e payload t id he hphase hid hnew flow hflow
    · rename_i error _
      cases h
      exact .turn _ i e _ he (.rejected error (by rw [hphase]; rfl))
  · cases h

theorem serves_of_consume {now now' : Int} (h : step C s (.consume i now now') = some s') :
    Serves C s (.consume i now now') s' := by
  obtain ⟨e, he, h⟩ := Option.bind_eq_some_iff.mp h
  split at h
  · rename_i id actor token hrequest hphase
    cases h
    refine serves_of_settle he (by rw [hphase]; rfl) fun payload hpayload => ?_
    simp only [bind_eq_ok, pure_eq_ok, CheckIn.findChallenge_eq_ok] at hpayload
    obtain ⟨_, -, -, ⟨challenge, hfound, hbooking, -, -⟩, rfl⟩ := hpayload
    exact .spending id actor token _ challenge hrequest hphase hfound hbooking
  · cases h

theorem serves_of_spend {now : Int} (h : step C s (.spend i now) = some s') :
    Serves C s (.spend i now) s' := by
  obtain ⟨e, he, h⟩ := Option.bind_eq_some_iff.mp h
  split at h
  · rename_i id actor token payload hrequest hphase
    split at h
    · rename_i db hdb
      obtain ⟨challenge, hfound, hunspent, rfl⟩ := CheckIn.spendChallenge_eq_ok.mp hdb
      obtain ⟨u, hu, rfl⟩ := Option.map_eq_some_iff.mp h
      obtain ⟨flow, hflow, rfl⟩ := drive_eq_some.mp hu
      exact .spend i now e id actor token payload challenge he hrequest hphase hfound hunspent
        flow hflow
    · rename_i error _
      cases h
      exact .turn _ i e _ he (.rejected error (by rw [hphase]; rfl))
  · cases h

theorem serves_of_forward (h : step C s (.forward i) = some s') : Serves C s (.forward i) s' := by
  obtain ⟨e, he, h⟩ := Option.bind_eq_some_iff.mp h
  split at h
  · rename_i call hphase
    obtain ⟨u, hu, rfl⟩ := Option.map_eq_some_iff.mp h
    obtain ⟨flow, hflow, rfl⟩ := drive_eq_some.mp hu
    exact .forward i e call he hphase flow hflow
  · cases h

end Inversion

/-- Every step of the API has one of the outcomes of `Serves`. -/
theorem serves_of_step {C : Config} {s s' : Server} {a : Action} (h : step C s a = some s') :
    Serves C s a s' := by
  -- a step that is nothing but a step of the workflow
  have hdrive : ∀ fa, a.drives C.runtime = some fa → s.drive C fa = some s' → Serves C s a s' := by
    intro fa ha hd
    obtain ⟨flow, hflow, rfl⟩ := drive_eq_some.mp hd
    exact .drive a fa flow ha hflow
  cases a with
  | create sender now uuid body =>
    simp only [step] at h
    split at h
    · rename_i input hparse
      exact hdrive (.create now uuid input) (by simp [Action.drives, hparse]) h
    · rename_i hparse
      cases h
      exact .refused sender now uuid body hparse
  | receive sender request =>
    cases h
    exact .receive sender request _ rfl
  | find i => exact serves_of_find h
  | verify i transaction events => exact serves_of_verify h
  | issue i now nonce => exact serves_of_issue h
  | store i => exact serves_of_store h
  | consume i now now' => exact serves_of_consume h
  | spend i now => exact serves_of_spend h
  | forward i => exact serves_of_forward h
  | drop i error =>
    obtain ⟨e, he, h⟩ := Option.bind_eq_some_iff.mp h
    simp only [Option.ite_none_right_eq_some, Option.some.injEq] at h
    obtain ⟨hwork, rfl⟩ := h
    exact .turn _ i e _ he (.rejected error hwork)
  | advance k => exact hdrive _ rfl h
  | fail k error => exact hdrive _ rfl h
  | stop k => exact hdrive _ rfl h
  | auth sender action =>
    simp only [step, Option.bind_eq_some_iff, Option.map_eq_some_iff] at h
    obtain ⟨⟨wallets, auth⟩, -, u, hu, rfl⟩ := h
    obtain ⟨flow, hflow, rfl⟩ := drive_eq_some.mp hu
    exact .auth sender action wallets auth flow hflow

/-- Seen from the workflow, a step of the API is one of its steps or none. -/
theorem flow_of_step {C : Config} {s s' : Server} {a : Action} (h : step C s a = some s') :
    s'.flow = s.flow ∨ ∃ fa, Workflow.step C.runtime C.network s.flow fa = some s'.flow := by
  cases serves_of_step h with
  | drive a fa flow ha hflow => exact .inr ⟨fa, hflow⟩
  | refused => exact .inl rfl
  | receive => exact .inl rfl
  | turn => exact .inl rfl
  | store i e payload t id he hphase hid hnew flow hflow => exact .inr ⟨_, hflow⟩
  | spend i now e id actor token payload c he hrequest hphase hfound hunspent flow hflow =>
    exact .inr ⟨_, hflow⟩
  | forward i e call he hphase flow hflow => exact .inr ⟨_, hflow⟩
  | auth sender action wallets auth flow hflow => exact .inr ⟨_, hflow⟩

theorem coherent_of_step {C : Config} {s s' : Server} {a : Action} (h : Workflow.Coherent s.flow)
    (hstep : step C s a = some s') : Workflow.Coherent s'.flow := by
  rcases flow_of_step hstep with hsame | ⟨fa, hfa⟩
  · rw [hsame]
    exact h
  · exact Workflow.coherent_step _ _ _ h hfa

/-- A row was there before the step with the same terms, or the step is the `create` request
    that stored it. -/
theorem row_of_step {C : Config} {s s' : Server} {a : Action} (h : Workflow.Coherent s.flow)
    (hstep : step C s a = some s') {id : String} {row' : BookingRow}
    (hrow' : s'.db.bookings.lookup id = some row') :
    (∃ row, s.db.bookings.lookup id = some row ∧ row.SameTerms row') ∨
    ∃ sender now uuid body input, a = .create sender now uuid body ∧
      body.parse C.runtime = some input ∧
      (Workflow.create C.runtime C.network s.db now uuid input).isOk = true ∧
      Workflow.Created C.runtime s.db uuid input s'.db row' := by
  cases hrow : s.db.bookings.lookup id with
  | some row =>
    refine .inl ⟨row, rfl, ?_⟩
    rcases flow_of_step hstep with hsame | ⟨fa, hfa⟩
    · rw [Server.db, hsame] at hrow'
      rw [Option.some.inj (hrow.symm.trans hrow')]
      exact sameTerms_refl row'
    · obtain ⟨x, hx, hterms⟩ := Workflow.terms_step h hfa hrow
      rw [Option.some.inj (hrow'.symm.trans hx)]
      exact hterms
  | none =>
    refine .inr ?_
    -- only a step of the workflow stores rows
    have hnew : ∀ fa, Workflow.step C.runtime C.network s.flow fa = some s'.flow →
        ∃ now uuid input, fa = .create now uuid input ∧
          (Workflow.create C.runtime C.network s.db now uuid input).isOk = true ∧
          Workflow.Created C.runtime s.db uuid input s'.db row' := by
      intro fa hfa
      obtain ⟨now, uuid, input, rfl, hcreated⟩ := Workflow.row_origin h hfa hrow hrow'
      refine ⟨now, uuid, input, rfl, ?_, hcreated⟩
      obtain ⟨-, ⟨db, b, hok, -⟩ | ⟨e, -, hsame⟩⟩ := Workflow.create_step hfa
      · rw [Server.db, hok]
        rfl
      · rw [Server.db, hsame, hrow] at hrow'
        cases hrow'
    have hsame : s'.flow ≠ s.flow := by
      intro hsame
      rw [Server.db, hsame, hrow] at hrow'
      cases hrow'
    cases serves_of_step hstep with
    | drive a fa flow ha hflow =>
      obtain ⟨now, uuid, input, rfl, hok, hcreated⟩ := hnew fa hflow
      cases a with
      | create sender now' uuid' body =>
        obtain ⟨input', hparse, heq⟩ := Option.map_eq_some_iff.mp ha
        cases heq
        exact ⟨sender, now, uuid, body, input, rfl, hparse, hok, hcreated⟩
      | _ => cases ha
    | refused => exact absurd rfl hsame
    | receive => exact absurd rfl hsame
    | turn => exact absurd rfl hsame
    | store i e payload t id he hphase hid hnone flow hflow =>
      obtain ⟨_, _, _, hfa, -⟩ := hnew _ hflow
      cases hfa
    | spend i now e id actor token payload c he hrequest hphase hfound hunspent flow hflow =>
      obtain ⟨_, _, _, hfa, -⟩ := hnew _ hflow
      cases hfa
    | forward i e call he hphase flow hflow =>
      obtain ⟨_, _, _, hfa, -⟩ := hnew _ hflow
      cases hfa
    | auth sender action wallets auth flow hflow =>
      obtain ⟨_, _, _, hfa, -⟩ := hnew _ hflow
      cases hfa

/-- A run of the API is a run of the workflow. -/
theorem flow_of_exec {C : Config} {s s' : Server} {as : List Action}
    (h : (machine C).exec s as = some s') :
    ∃ fs, (Workflow.machine C.runtime C.network).exec s.flow fs = some s'.flow := by
  refine (machine C).exec_simulates (N := Workflow.machine C.runtime C.network)
    (f := Server.flow) ?_ h
  intro s a s' hstep
  rcases flow_of_step hstep with hsame | ⟨fa, hfa⟩
  · exact ⟨[], by rw [hsame]; rfl⟩
  · exact ⟨[fa], (Workflow.machine C.runtime C.network).exec_single hfa⟩

end PovDeposit.Api
