/-
  Requests that are served to their end, with the booking id as the database spells it.

  `settlingRun` is the whole run of a `fund`, `cancel` or `confirm` request whose verification
  succeeds and whose call has a clear way, `presenceRun` that of a check-in challenge and the
  check-in that follows it. Nobody else moves in between. The senders are parameters: no
  handler asks who they are.
-/
import PovDeposit.Api.Handlers
import PovDeposit.Api.Completion

namespace PovDeposit.Api

open PovDeposit.Lib PovDeposit.Lib.Outcome
open PovDeposit.Contract (Address)
open Workflow (Clear Completed)

section Runs

variable (C : Config) {s : Server}

/-- A run of the workflow that only steps call `k`, driven by the API. -/
theorem drive_exec {k n : Nat} {flow : Workflow.State}
    (h : (Workflow.machine C.runtime C.network).exec s.flow (List.replicate n (.advance k)) =
      some flow) :
    (machine C).exec s (List.replicate n (.advance k)) = some { s with flow := flow } := by
  induction n generalizing s with
  | zero =>
    simp only [List.replicate_zero, Machine.exec_nil, Option.some.injEq] at h ⊢
    rw [← h]
  | succ n ih =>
    obtain ⟨u, hu, hrest⟩ := (Machine.exec_cons_eq_some _).mp h
    exact ((machine C).exec_cons_eq_some).mpr
      ⟨{ s with flow := u }, drive_eq_some.mpr ⟨u, hu, rfl⟩, ih hrest⟩

theorem exchange?_concat (s : Server) (e : Exchange) :
    ({ s with exchanges := s.exchanges ++ [e] } : Server).exchange? s.exchanges.length = some e :=
  List.getElem?_concat_length

theorem turn_concat {flow : Workflow.State} {auth : WalletAuth.State} {l : List Exchange}
    {e e' : Exchange} :
    Server.turn ⟨flow, l ++ [e], auth⟩ l.length e' = ⟨flow, l ++ [e'], auth⟩ := by
  simp [Server.turn]

theorem step_receive (sender : Address) {request : Request} (h : request.valid = true) :
    step C s (.receive sender request) =
      some { s with exchanges := s.exchanges ++ [⟨sender, request, .received⟩] } := by
  simp [step, h]

/-- A request whose handler is about to call the workflow, served to the end of that call. -/
theorem serve_forward (sender : Address) (request : Request) {c : Workflow.Call}
    {row : BookingRow} (h : Clear s.flow c row) (hid : C.runtime.Canonical c.op.id) :
    ∃ n t, (machine C).exec { s with exchanges := s.exchanges ++ [⟨sender, request, .ready c⟩] }
        (.forward s.exchanges.length :: List.replicate n (.advance s.flow.calls.length)) = some t ∧
      Completed s.flow c row t.flow ∧
      t.exchanges = s.exchanges ++ [⟨sender, request, .forwarded⟩] := by
  obtain ⟨n, flow, hrun, hdone⟩ :=
    Workflow.serve_call C.runtime C.network h hid
  obtain ⟨u, hcall, hrest⟩ := (Machine.exec_cons_eq_some _).mp hrun
  have hforward : step C { s with exchanges := s.exchanges ++ [⟨sender, request, .ready c⟩] }
      (.forward s.exchanges.length) =
      some ⟨u, s.exchanges ++ [⟨sender, request, .forwarded⟩], s.auth⟩ := by
    have hdrive : Server.drive C
        { s with exchanges := s.exchanges ++ [⟨sender, request, .ready c⟩] } (.call c) =
        some ⟨u, s.exchanges ++ [⟨sender, request, .ready c⟩], s.auth⟩ :=
      drive_eq_some.mpr ⟨u, hcall, rfl⟩
    simp only [step, exchange?_concat, Option.bind_some, hdrive, Option.map_some, turn_concat]
  exact ⟨n, _, ((machine C).exec_cons_eq_some).mpr ⟨_, hforward, drive_exec C hrest⟩, hdone, rfl⟩

/-! ## Requests with a transaction -/

/-- The run of a request with a transaction: exchange `i` and call `k` are new. -/
def settlingRun (sender : Address) (request : Request) (transaction : TransactionAnswer)
    (events : List EventInfo) (i k n : Nat) : List Action :=
  [.receive sender request, .find i, .verify i transaction events, .forward i] ++
    List.replicate n (.advance k)

/-- A step that the arrival of a request leads to, and no failure. -/
def Action.internal : Action → Bool
  | .find _ | .verify _ _ _ | .issue _ _ _ | .store _ | .consume _ _ _ | .spend _ _ | .forward _
  | .advance _ => true
  | .create _ _ _ _ | .receive _ _ | .drop _ _ | .fail _ _ | .stop _ | .auth _ _ => false

theorem sender_of_internal {a : Action} (h : a.internal = true) : a.sender = none := by
  cases a <;> first | rfl | cases h

theorem mem_settlingRun {sender : Address} {request : Request} {transaction : TransactionAnswer}
    {events : List EventInfo} {i k n : Nat} {a : Action}
    (h : a ∈ settlingRun sender request transaction events i k n) :
    a = .receive sender request ∨ a.internal = true := by
  simp only [settlingRun, List.mem_append, List.mem_cons, List.mem_replicate, List.not_mem_nil,
    or_false] at h
  rcases h with (rfl | rfl | rfl | rfl) | ⟨-, rfl⟩
  · exact .inl rfl
  all_goals exact .inr rfl

/-- The one verification of the run is that of the request. -/
theorem settlingRun_verifies (sender : Address) (request : Request)
    (transaction : TransactionAnswer) (events : List EventInfo) (k n : Nat) :
    (machine C).Along (fun t a => ∀ i transaction' events', a = .verify i transaction' events' →
        transaction' = transaction ∧ events' = events ∧
          ∃ e, t.exchange? i = some e ∧ e.request = request) s
      (settlingRun sender request transaction events s.exchanges.length k n) := by
  -- the request is in place when it has arrived, and `find` keeps it
  refine ⟨fun i t ev ha => (by cases ha), fun u hu => ?_⟩
  obtain ⟨e, he, hrequest⟩ : ∃ e, u.exchange? s.exchanges.length = some e ∧
      e.request = request := by
    cases hu
    exact ⟨_, exchange?_concat s _, rfl⟩
  refine ⟨fun i t ev ha => (by cases ha), fun w hw => ?_⟩
  obtain ⟨e', he', hrequest'⟩ : ∃ e', w.exchange? s.exchanges.length = some e' ∧
      e'.request = request := by
    obtain ⟨x, hx, hfind⟩ := Option.bind_eq_some_iff.mp hw
    obtain rfl : e = x := Option.some.inj (he.symm.trans hx)
    split at hfind
    · cases hfind
    · cases hfind
      exact ⟨_, exchange?_turn_self he, hrequest⟩
    · cases hfind
  refine ⟨fun i t ev ha => ?_, fun x _ => ?_⟩
  · cases ha
    exact ⟨rfl, rfl, e', he', hrequest'⟩
  · have hrest : ∀ a ∈ .forward s.exchanges.length :: List.replicate n (Action.advance k),
        ∀ i t ev, a ≠ .verify i t ev := by
      intro a ha i t ev hv
      simp only [List.mem_cons, List.mem_replicate, hv] at ha
      rcases ha with ha | ⟨-, ha⟩ <;> cases ha
    exact (machine C).along_mono (fun _ a hne i t ev ha => absurd ha (hne i t ev))
      ((machine C).along_of_forall x hrest)

theorem check_call_id {request : Request} {check : Check} (h : request.check? = some check)
    (v : Workflow.Verification) : (check.call v).op.id = request.id := by
  cases request <;> cases h <;> rfl

/-- From the arrival of a request on, to the end of its call. -/
theorem serve_arrived (sender : Address) {request : Request} {check : Check} {row : BookingRow}
    {transaction : TransactionAnswer} {events : List EventInfo} {v : Workflow.Verification}
    (hcheck : request.check? = some check) (hid : C.runtime.Canonical request.id)
    (hrow : s.db.bookings.lookup request.id = some row)
    (hv : verifyEvent C.contractId transaction events check.transactionHash row.onChainBookingId
      check.expectedEvent = .ok v) (h : Clear s.flow (check.call v) row) :
    ∃ n t, (machine C).exec { s with exchanges := s.exchanges ++ [⟨sender, request, .received⟩] }
        ([.find s.exchanges.length, .verify s.exchanges.length transaction events,
          .forward s.exchanges.length] ++
          List.replicate n (.advance s.flow.calls.length)) = some t ∧
      Completed s.flow (check.call v) row t.flow ∧
      t.exchanges = s.exchanges ++ [⟨sender, request, .forwarded⟩] := by
  -- the request has a transaction, so it is neither of the two about check-in
  have hlook : lookUp C.runtime s.db request = .ok (Workflow.load s.db row) := by
    refine lookUp_eq_ok.mpr ⟨Workflow.get_eq_ok.mpr ⟨row, (names_iff hid).mpr hrow, rfl⟩, ?_⟩
    rintro id actor rfl
    cases hcheck
  have hfind : step C { s with exchanges := s.exchanges ++ [⟨sender, request, .received⟩] }
      (.find s.exchanges.length) = some { s with
        exchanges := s.exchanges ++ [⟨sender, request, .found (Workflow.load s.db row)⟩] } := by
    simp only [step, exchange?_concat, Option.bind_some]
    cases request with
    | checkIn => cases hcheck
    | _ => simp only [hlook, Phase.settle, turn_concat]
  have hverify : step C { s with
        exchanges := s.exchanges ++ [⟨sender, request, .found (Workflow.load s.db row)⟩] }
      (.verify s.exchanges.length transaction events) = some { s with
        exchanges := s.exchanges ++ [⟨sender, request, .ready (check.call v)⟩] } := by
    have hv' : verifyEvent C.contractId transaction events check.transactionHash
        (Workflow.load s.db row).onChainBookingId check.expectedEvent = .ok v := hv
    simp only [step, exchange?_concat, Option.bind_some, hcheck, hv', Phase.settle, turn_concat]
  obtain ⟨n, t, hrest, hdone⟩ := serve_forward C sender request h
    (by rw [check_call_id hcheck]; exact hid)
  exact ⟨n, t, ((machine C).exec_cons_eq_some).mpr ⟨_, hfind,
    ((machine C).exec_cons_eq_some).mpr ⟨_, hverify, hrest⟩⟩, hdone⟩

theorem serve_settling (sender : Address) {request : Request} {check : Check} {row : BookingRow}
    {transaction : TransactionAnswer} {events : List EventInfo} {v : Workflow.Verification}
    (hvalid : request.valid = true) (hcheck : request.check? = some check)
    (hid : C.runtime.Canonical request.id) (hrow : s.db.bookings.lookup request.id = some row)
    (hv : verifyEvent C.contractId transaction events check.transactionHash row.onChainBookingId
      check.expectedEvent = .ok v) (h : Clear s.flow (check.call v) row) :
    ∃ n t, (machine C).exec s (settlingRun sender request transaction events s.exchanges.length
        s.flow.calls.length n) = some t ∧ Completed s.flow (check.call v) row t.flow := by
  obtain ⟨n, t, hrest, hdone, -⟩ := serve_arrived C sender hcheck hid hrow hv h
  exact ⟨n, t, ((machine C).exec_cons_eq_some).mpr ⟨_, step_receive C sender hvalid, hrest⟩, hdone⟩

/-- An exchange that may call the workflow after its verification. -/
theorem verified_of_ready {s' : Server} {i : Nat} {transaction : TransactionAnswer}
    {events : List EventInfo} {e' : Exchange} {call : Workflow.Call}
    (h : step C s (.verify i transaction events) = some s') (he' : s'.exchange? i = some e')
    (hready : e'.phase = .ready call) :
    ∃ e check b v, s.exchange? i = some e ∧ e.request = e'.request ∧ e.phase = .found b ∧
      e.request.check? = some check ∧ verifyEvent C.contractId transaction events
        check.transactionHash b.onChainBookingId check.expectedEvent = .ok v := by
  obtain ⟨e, he, h⟩ := Option.bind_eq_some_iff.mp h
  split at h
  · rename_i check b hcheck hphase
    cases h
    obtain rfl := Option.some.inj ((exchange?_turn_self he).symm.trans he')
    cases hv : verifyEvent C.contractId transaction events check.transactionHash
        b.onChainBookingId check.expectedEvent with
    | ok v => exact ⟨e, check, b, v, he, rfl, hphase, hcheck, hv⟩
    | error error =>
      rw [hv] at hready
      cases hready
  · cases h

/-- An exchange that has found its booking. -/
theorem found_of_find {s' : Server} {i : Nat} {e' : Exchange} {b : Workflow.Booking}
    (h : step C s (.find i) = some s') (he' : s'.exchange? i = some e') (hfound : e'.phase = .found b) :
    ∃ e row, s.exchange? i = some e ∧ e.request = e'.request ∧
      s.db.Names C.runtime e.request.id row ∧ b = Workflow.load s.db row := by
  obtain ⟨e, he, h⟩ := Option.bind_eq_some_iff.mp h
  split at h
  · cases h
  · cases h
    obtain rfl := Option.some.inj ((exchange?_turn_self he).symm.trans he')
    cases hlook : lookUp C.runtime s.db e.request with
    | ok x =>
      rw [hlook] at hfound
      cases hfound
      obtain ⟨row, hrow, rfl⟩ := Workflow.get_eq_ok.mp (lookUp_eq_ok.mp hlook).1
      exact ⟨e, row, he, rfl, hrow, rfl⟩
    | error error =>
      rw [hlook] at hfound
      cases hfound
  · cases h

/-- A request that was served to its call of the workflow had its transaction verified. -/
theorem verified_of_settlingRun {sender : Address} {request : Request} {check : Check}
    {transaction : TransactionAnswer} {events : List EventInfo} {k n : Nat} {t : Server}
    (hcheck : request.check? = some check)
    (h : (machine C).exec s (settlingRun sender request transaction events s.exchanges.length k n) =
      some t) :
    ∃ row v, s.db.Names C.runtime request.id row ∧
      verifyEvent C.contractId transaction events check.transactionHash row.onChainBookingId
        check.expectedEvent = .ok v := by
  obtain ⟨u₁, hreceive, h⟩ := ((machine C).exec_cons_eq_some).mp h
  obtain ⟨u₂, hfind, h⟩ := ((machine C).exec_cons_eq_some).mp h
  obtain ⟨u₃, hverify, h⟩ := ((machine C).exec_cons_eq_some).mp h
  obtain ⟨u₄, hforward, -⟩ := ((machine C).exec_cons_eq_some).mp h
  -- from the call back to the arrival
  obtain ⟨e₃, he₃, hforward⟩ := Option.bind_eq_some_iff.mp hforward
  split at hforward
  · rename_i call hready
    obtain ⟨e₂, check', b, v, he₂, hrequest₂, hfound, hcheck', hv⟩ :=
      verified_of_ready C hverify he₃ hready
    obtain ⟨e₁, row, he₁, hrequest₁, hrow, rfl⟩ := found_of_find C hfind he₂ hfound
    cases hreceive
    obtain rfl := Option.some.inj ((exchange?_concat s _).symm.trans he₁)
    rw [← hrequest₁] at hcheck'
    obtain rfl := Option.some.inj (hcheck.symm.trans hcheck')
    exact ⟨row, v, hrow, hv⟩
  · cases hforward

/-! ## Check-in -/

/-- The run of a check-in challenge, exchange `i`, and of the check-in with its token. -/
def presenceRun (R : Runtime) (host renter issuer presenter : Address) (id nonce : String)
    (now : Int) (i k n : Nat) : List Action :=
  [.receive issuer (.checkInChallenge id host), .find i, .issue i now nonce, .store i] ++
  [.receive presenter (.checkIn id renter (CheckIn.token R (CheckIn.newPayload id renter nonce now))),
    .consume (i + 1) now now, .spend (i + 1) now] ++
    .forward (i + 1) :: List.replicate n (.advance k)

theorem mem_presenceRun {R : Runtime} {host renter issuer presenter : Address}
    {id nonce : String} {now : Int} {i k n : Nat} {a : Action}
    (h : a ∈ presenceRun R host renter issuer presenter id nonce now i k n) :
    (∃ request, a = .receive issuer request) ∨ (∃ request, a = .receive presenter request) ∨
      a.internal = true ∧ ∀ j transaction events, a ≠ .verify j transaction events := by
  simp only [presenceRun, List.mem_append, List.mem_cons, List.mem_replicate, List.not_mem_nil,
    or_false] at h
  rcases h with ((rfl | rfl | rfl | rfl) | rfl | rfl | rfl) | rfl | ⟨-, rfl⟩
  · exact .inl ⟨_, rfl⟩
  · exact .inr (.inr ⟨rfl, by simp⟩)
  · exact .inr (.inr ⟨rfl, by simp⟩)
  · exact .inr (.inr ⟨rfl, by simp⟩)
  · exact .inr (.inl ⟨_, rfl⟩)
  all_goals exact .inr (.inr ⟨rfl, by simp⟩)

/-- What a clear way needs survives writes to the other tables. -/
theorem clear_others {flow : Workflow.State} {c : Workflow.Call} {row : BookingRow}
    (h : Clear flow c row) (challenges : AList fun _ : String => CheckInChallenge) :
    Clear { flow with db := { flow.db with challenges := challenges } } c row :=
  ⟨h.stored, h.admits, h.hash, h.verified, h.unlocked, h.untaken, h.unused⟩

/-- The state after the challenge was issued, from the arrival of the request on. -/
theorem serve_challenge_arrived (issuer : Address) {id nonce : String} (now : Int)
    {row : BookingRow} (hid : C.runtime.Canonical id) (hrow : s.db.bookings.lookup id = some row)
    (hnew : s.db.challenges.lookup (CheckIn.hashNonce C.runtime nonce) = none) :
    (machine C).exec { s with exchanges :=
        s.exchanges ++ [⟨issuer, .checkInChallenge id row.host, .received⟩] }
      [.find s.exchanges.length, .issue s.exchanges.length now nonce, .store s.exchanges.length] =
      some ⟨{ s.flow with db := { s.db with
          challenges := s.db.challenges.insert (CheckIn.hashNonce C.runtime nonce)
            ⟨id, CheckIn.hashNonce C.runtime nonce, now + 2 * 60000, none⟩ } },
        s.exchanges ++ [⟨issuer, .checkInChallenge id row.host,
          .answered (CheckIn.token C.runtime (CheckIn.newPayload id row.renter nonce now))⟩],
        s.auth⟩ := by
  let payload := CheckIn.newPayload id row.renter nonce now
  let request := Request.checkInChallenge id row.host
  have hlook : lookUp C.runtime s.db request = .ok (Workflow.load s.db row) := by
    refine lookUp_eq_ok.mpr ⟨Workflow.get_eq_ok.mpr ⟨row, (names_iff hid).mpr hrow, rfl⟩, ?_⟩
    intro id' actor h
    simp only [request, Request.checkInChallenge.injEq] at h
    exact h.2
  have hfind : step C { s with exchanges := s.exchanges ++ [⟨issuer, request, .received⟩] }
      (.find s.exchanges.length) = some { s with
        exchanges := s.exchanges ++ [⟨issuer, request, .found (Workflow.load s.db row)⟩] } := by
    simp only [step, exchange?_concat, Option.bind_some, request]
    simp only [hlook, Phase.settle, turn_concat, request]
  have hbooking : CheckIn.findBooking C.runtime s.db payload = .ok () :=
    CheckIn.findBooking_eq_ok.mpr ⟨row, (names_iff hid).mpr hrow, rfl⟩
  have hissue : step C { s with
        exchanges := s.exchanges ++ [⟨issuer, request, .found (Workflow.load s.db row)⟩] }
      (.issue s.exchanges.length now nonce) = some { s with
        exchanges := s.exchanges ++ [⟨issuer, request, .issuing payload⟩] } := by
    have hbooking' : CheckIn.findBooking C.runtime s.db
        (CheckIn.newPayload id (Workflow.load s.db row).renter nonce now) = .ok () := hbooking
    simp only [step, exchange?_concat, Option.bind_some, request, hbooking', Phase.settle,
      turn_concat]
    rfl
  have hstore : CheckIn.storeChallenge C.runtime s.db payload = .ok { s.db with
      challenges := s.db.challenges.insert (CheckIn.hashNonce C.runtime nonce)
        ⟨id, CheckIn.hashNonce C.runtime nonce, now + 2 * 60000, none⟩ } :=
    CheckIn.storeChallenge_eq_ok.mpr ⟨_, id, rfl, hid, hnew, rfl⟩
  have hlast : step C { s with exchanges := s.exchanges ++ [⟨issuer, request, .issuing payload⟩] }
      (.store s.exchanges.length) = some
        ⟨{ s.flow with db := { s.db with
            challenges := s.db.challenges.insert (CheckIn.hashNonce C.runtime nonce)
              ⟨id, CheckIn.hashNonce C.runtime nonce, now + 2 * 60000, none⟩ } },
          s.exchanges ++ [⟨issuer, request, .answered (CheckIn.token C.runtime payload)⟩],
          s.auth⟩ := by
    simp only [step, exchange?_concat, Option.bind_some, hstore, Server.drive, Workflow.step,
      Option.map_some, turn_concat]
  exact ((machine C).exec_cons_eq_some).mpr ⟨_, hfind,
    ((machine C).exec_cons_eq_some).mpr ⟨_, hissue, (machine C).exec_single hlast⟩⟩

theorem serve_challenge (issuer : Address) {id nonce : String} (now : Int) {row : BookingRow}
    (hvalid : isText 100 row.host = true) (hid : C.runtime.Canonical id)
    (hrow : s.db.bookings.lookup id = some row)
    (hnew : s.db.challenges.lookup (CheckIn.hashNonce C.runtime nonce) = none) :
    ∃ t, (machine C).exec s [.receive issuer (.checkInChallenge id row.host),
        .find s.exchanges.length, .issue s.exchanges.length now nonce,
        .store s.exchanges.length] = some t ∧
      t.flow = { s.flow with db := { s.db with
        challenges := s.db.challenges.insert (CheckIn.hashNonce C.runtime nonce)
          ⟨id, CheckIn.hashNonce C.runtime nonce, now + 2 * 60000, none⟩ } } ∧
      t.exchanges.length = s.exchanges.length + 1 := by
  refine ⟨_, ((machine C).exec_cons_eq_some).mpr ⟨_, step_receive C issuer hvalid,
    serve_challenge_arrived C issuer now hid hrow hnew⟩, rfl, ?_⟩
  rw [List.length_append]
  rfl

/-- A token that is presented in time is spent, and its request goes on to the workflow, from its
    arrival on. -/
theorem serve_token_arrived (presenter : Address) {renter : Address} {id nonce : String} {now : Int}
    {row : BookingRow} {challenge : CheckInChallenge} (hid : C.runtime.Canonical id)
    (hcarries : CheckIn.Carries C.runtime (CheckIn.newPayload id renter nonce now))
    (hstored : s.db.challenges.lookup (CheckIn.hashNonce C.runtime nonce) = some challenge)
    (hbooking : challenge.bookingId = id) (hunspent : challenge.consumedAt = none)
    (hlive : now < challenge.expiresAt)
    (h : Clear s.flow (.checkIn id renter (C.runtime.sha256 nonce)) row) :
    ∃ n t challenges, (machine C).exec { s with exchanges := s.exchanges ++ [⟨presenter, .checkIn id
          renter (CheckIn.token C.runtime (CheckIn.newPayload id renter nonce now)), .received⟩] }
        ([.consume s.exchanges.length now now, .spend s.exchanges.length now] ++
          .forward s.exchanges.length :: List.replicate n (.advance s.flow.calls.length)) = some t ∧
      Completed { s.flow with db := { s.db with challenges := challenges } }
        (.checkIn id renter (C.runtime.sha256 nonce)) row t.flow ∧
      t.exchanges = s.exchanges ++ [⟨presenter, .checkIn id renter
        (CheckIn.token C.runtime (CheckIn.newPayload id renter nonce now)), .forwarded⟩] := by
  let payload := CheckIn.newPayload id renter nonce now
  let request := Request.checkIn id renter (CheckIn.token C.runtime payload)
  let challenges := s.db.challenges.insert (CheckIn.hashNonce C.runtime nonce)
    { challenge with consumedAt := some now }
  have hread : CheckIn.readToken C.runtime (CheckIn.token C.runtime payload) id renter now =
      .ok payload := CheckIn.readToken_token hcarries.encodes (by omega)
  have hfound : CheckIn.findChallenge C.runtime s.db payload id now = .ok () :=
    CheckIn.findChallenge_eq_ok.mpr ⟨challenge, hstored, hbooking, hunspent, hlive⟩
  have hconsume : step C { s with exchanges := s.exchanges ++ [⟨presenter, request, .received⟩] }
      (.consume s.exchanges.length now now) = some { s with
        exchanges := s.exchanges ++ [⟨presenter, request, .spending payload⟩] } := by
    simp only [step, exchange?_concat, Option.bind_some, request]
    simp only [hread, hfound, bind, Except.bind, pure, Except.pure, Phase.settle, turn_concat]
  have hspent : CheckIn.spendChallenge C.runtime s.db payload now =
      .ok { s.db with challenges := challenges } :=
    CheckIn.spendChallenge_eq_ok.mpr ⟨challenge, hstored, hunspent, rfl⟩
  have hspend : step C
      { s with exchanges := s.exchanges ++ [⟨presenter, request, .spending payload⟩] }
      (.spend s.exchanges.length now) = some
        ⟨{ s.flow with db := { s.db with challenges := challenges } },
          s.exchanges ++ [⟨presenter, request,
            .ready (.checkIn id renter (C.runtime.sha256 nonce))⟩], s.auth⟩ := by
    simp only [step, exchange?_concat, Option.bind_some, request, hspent, Server.drive,
      Workflow.step, Option.map_some, turn_concat]
    rfl
  obtain ⟨n, t, hrest, hdone⟩ := serve_forward C presenter request
    (s := { s with flow := { s.flow with db := { s.db with challenges := challenges } } })
    (clear_others h challenges) hid
  exact ⟨n, t, challenges, ((machine C).exec_cons_eq_some).mpr ⟨_, hconsume,
    ((machine C).exec_cons_eq_some).mpr ⟨_, hspend, hrest⟩⟩, hdone⟩

theorem serve_token (presenter : Address) {renter : Address} {id nonce : String} {now : Int}
    {row : BookingRow} {challenge : CheckInChallenge} (hvalid : isText 100 renter = true)
    (hid : C.runtime.Canonical id)
    (hcarries : CheckIn.Carries C.runtime (CheckIn.newPayload id renter nonce now))
    (hstored : s.db.challenges.lookup (CheckIn.hashNonce C.runtime nonce) = some challenge)
    (hbooking : challenge.bookingId = id) (hunspent : challenge.consumedAt = none)
    (hlive : now < challenge.expiresAt)
    (h : Clear s.flow (.checkIn id renter (C.runtime.sha256 nonce)) row) :
    ∃ n t challenges, (machine C).exec s ([.receive presenter (.checkIn id renter
          (CheckIn.token C.runtime (CheckIn.newPayload id renter nonce now))),
        .consume s.exchanges.length now now, .spend s.exchanges.length now] ++
        .forward s.exchanges.length :: List.replicate n (.advance s.flow.calls.length)) = some t ∧
      Completed { s.flow with db := { s.db with challenges := challenges } }
        (.checkIn id renter (C.runtime.sha256 nonce)) row t.flow := by
  obtain ⟨n, t, challenges, hrest, hdone, -⟩ := serve_token_arrived C presenter hid hcarries
    hstored hbooking hunspent hlive h
  have hvalid' : (Request.checkIn id renter
      (CheckIn.token C.runtime (CheckIn.newPayload id renter nonce now))).valid = true := by
    simp [Request.valid, hvalid, hcarries.length]
  exact ⟨n, t, challenges, ((machine C).exec_cons_eq_some).mpr
    ⟨_, step_receive C presenter hvalid', hrest⟩, hdone⟩

/-- A funded booking is checked in by a challenge for its renter, whoever sends the requests. -/
theorem serve_presence (issuer presenter : Address) {id nonce : String} (now : Int)
    {row : BookingRow} (hhost : isText 100 row.host = true) (hrenter : isText 100 row.renter = true)
    (hid : C.runtime.Canonical id)
    (hcarries : CheckIn.Carries C.runtime (CheckIn.newPayload id row.renter nonce now))
    (hnew : s.db.challenges.lookup (CheckIn.hashNonce C.runtime nonce) = none)
    (h : Clear s.flow (.checkIn id row.renter (C.runtime.sha256 nonce)) row) :
    ∃ n t challenges, (machine C).exec s (presenceRun C.runtime row.host row.renter issuer presenter
        id nonce now s.exchanges.length s.flow.calls.length n) = some t ∧
      Completed { s.flow with db := { s.db with challenges := challenges } }
        (.checkIn id row.renter (C.runtime.sha256 nonce)) row t.flow := by
  have hrow : s.db.bookings.lookup id = some row := h.stored
  obtain ⟨u, hissued, hflow, hlength⟩ := serve_challenge C issuer now hhost hid hrow hnew
  have hclear : Clear u.flow (.checkIn id row.renter (C.runtime.sha256 nonce)) row := by
    rw [hflow]
    exact clear_others h _
  have hstored : u.db.challenges.lookup (CheckIn.hashNonce C.runtime nonce) =
      some ⟨id, CheckIn.hashNonce C.runtime nonce, now + 2 * 60000, none⟩ := by
    rw [Server.db, hflow, lookup_insert, if_pos rfl]
  obtain ⟨n, t, challenges, hpresented, hdone⟩ := serve_token C presenter hrenter hid
    hcarries hstored rfl rfl (by simp only; omega) hclear
  rw [hlength] at hpresented
  have hcalls : u.flow.calls.length = s.flow.calls.length := by rw [hflow]
  refine ⟨n, t, challenges, ?_, ?_⟩
  · have hrun := (machine C).exec_trans hissued hpresented
    rw [hcalls] at hrun
    exact hrun
  · rw [Server.db, hflow] at hdone
    exact hdone

end Runs

/-! ## A sample -/

section Sample

open Workflow (sampleRuntime samplePayload sampleEncoded)

theorem sampleEncoded_chars : '.' ∉ sampleEncoded.toList := by
  unfold sampleEncoded
  simp only [String.toList_append, List.mem_append, not_or]
  decide +kernel

theorem carries_sample : CheckIn.Carries sampleRuntime samplePayload := by
  have hencode : sampleRuntime.encode samplePayload = sampleEncoded := by
    simp only [sampleRuntime, if_true]
  have hsign : sampleRuntime.sign sampleEncoded = "CG2ppWyT0kL4QJGGnZqkwaqDjAlQe_0UGsUV9c7-kE4" := by
    simp only [sampleRuntime, if_true]
  refine ⟨?_, ?_, ?_, ?_, ?_⟩
  · rw [hencode]
    exact ⟨by decide +kernel, sampleEncoded_chars⟩
  · rw [hencode, hsign]
    exact ⟨by decide +kernel, by decide +kernel⟩
  · rw [hencode]
    simp only [sampleRuntime, if_true]
  · rw [CheckIn.token, hencode, hsign]
    unfold sampleEncoded isText
    simp only [utf16Length_append]
    decide +kernel
  · decide +kernel

def sampleConfig : Config where
  runtime := sampleRuntime
  keys := ⟨fun _ => false, fun _ _ _ => false, fun _ => ""⟩
  network := "TESTNET"
  contractId := "escrow"
  origins := ["http://localhost:3000"]

/-- The API with one listed property, before any request. -/
def listedServer : Server where
  flow := Workflow.listed
  exchanges := []
  auth := ⟨fun _ => ∅, ∅, [], []⟩

theorem fresh_listedServer : Fresh listedServer :=
  ⟨Workflow.fresh_listed, rfl, ⟨fun _ => rfl, rfl, rfl, rfl⟩⟩

/-- The renter books the slot. -/
def bookRequest : Action :=
  .create "renter" 1892808000000 "3b241101-e2bb-4255-8caf-4136c566a962"
    ⟨"loft", "renter", "host", "1000000", "2030-01-01T10:00:00.000Z",
      "6c86c6aac5fb24bcf5d9939cb7d7d5645ce39418f449e03b262dd4fa14b4b92b"⟩

/-- The renter's `fund` request: exchange 0 and call 0. -/
def fundRequest : List Action :=
  settlingRun "renter" (.fund "3b241101-e2bb-4255-8caf-4136c566a962"
      "2514e1475addffb378fdb07e9a1092176c09dbfbd129ebcaacd0099818d2534c")
    (.success 7 1892809000)
    [⟨true, "2514e1475addffb378fdb07e9a1092176c09dbfbd129ebcaacd0099818d2534c",
      [.string "booking_funded", .integer 4261549847195894357]⟩] 0 0 6

theorem canonical_sample : sampleRuntime.Canonical "3b241101-e2bb-4255-8caf-4136c566a962" := by
  decide

/-- Funded, with nothing in the way of a check-in. -/
theorem funded_clear : ∃ s row,
    (machine sampleConfig).exec listedServer (bookRequest :: fundRequest) = some s ∧
    Workflow.Clear s.flow (.checkIn "3b241101-e2bb-4255-8caf-4136c566a962" "renter"
      "6c86c6aac5fb24bcf5d9939cb7d7d5645ce39418f449e03b262dd4fa14b4b92b") row ∧
    row.host = "host" ∧ row.renter = "renter" ∧ row.onChainBookingId = "4261549847195894357" ∧
    s.db.challenges = ∅ :=
  ⟨_, _, rfl, ⟨rfl, rfl, rfl, (by intro _ h; cases h), rfl, (by intro h; cases h),
    (by intro h; cases h)⟩, rfl, rfl, rfl, rfl⟩

/-- The renter then checks in, with a challenge that the renter asked for as well. -/
theorem presence_completed : ∃ (s : Server) (i k n : Nat) (t : Server) (row : BookingRow)
      (challenges : AList fun _ : String => CheckInChallenge),
    (machine sampleConfig).exec listedServer (bookRequest :: fundRequest ++
      presenceRun sampleRuntime "host" "renter" "renter" "renter"
        "3b241101-e2bb-4255-8caf-4136c566a962" samplePayload.nonce 1893488400000 i k n) = some t ∧
    row.host = "host" ∧ row.onChainBookingId = "4261549847195894357" ∧
    s.flow.rowLocked "3b241101-e2bb-4255-8caf-4136c566a962" = false ∧
    Completed { s.flow with db := { s.db with challenges := challenges } }
      (.checkIn "3b241101-e2bb-4255-8caf-4136c566a962" row.renter
        (sampleRuntime.sha256 samplePayload.nonce)) row t.flow := by
  obtain ⟨s, row, hrun, hclear, hhost, hrenter, honChain, hchallenges⟩ := funded_clear
  have hnonce : Workflow.sampleRuntime.sha256 Workflow.samplePayload.nonce =
      "6c86c6aac5fb24bcf5d9939cb7d7d5645ce39418f449e03b262dd4fa14b4b92b" := by
    simp only [Workflow.sampleRuntime, if_true]
  rw [← hrenter, ← hnonce] at hclear
  obtain ⟨n, t, challenges, hpresence, hdone⟩ := serve_presence sampleConfig "renter" "renter"
    1893488400000 (by rw [hhost]; decide) (by rw [hrenter]; decide) canonical_sample
    (by rw [hrenter]; exact carries_sample) (by rw [hchallenges]; rfl) hclear
  rw [hhost, hrenter] at hpresence
  exact ⟨s, _, _, n, t, row, challenges, (machine sampleConfig).exec_trans hrun hpresence, hhost,
    honChain, hclear.unlocked, hdone⟩

theorem presence_sample : ∃ i k n t row,
    (machine sampleConfig).exec listedServer (bookRequest :: fundRequest ++
      presenceRun sampleRuntime "host" "renter" "renter" "renter"
        "3b241101-e2bb-4255-8caf-4136c566a962" samplePayload.nonce 1893488400000 i k n) = some t ∧
    row.host = "host" ∧
    t.db.bookings.lookup "3b241101-e2bb-4255-8caf-4136c566a962" = some
      (Workflow.Operation.apply (Workflow.checkIn "3b241101-e2bb-4255-8caf-4136c566a962" row.renter
        (sampleRuntime.sha256 samplePayload.nonce)) row) := by
  obtain ⟨s, i, k, n, t, row, challenges, hrun, hhost, -, -, hdone⟩ := presence_completed
  refine ⟨i, k, n, t, row, hrun, hhost, ?_⟩
  rw [Server.db, hdone.bookings]
  exact AList.lookup_insert _

end Sample

end PovDeposit.Api
