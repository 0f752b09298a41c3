/-
  The escrow contract and the booking API side by side.

  The two share nothing but the answers of the RPC server: a step is a step of the chain, or a
  step of the API whose answers, where it asks for any, are true of the chain as it stands.

  `Backed` is what the events then say about the database. Every call of `fund`, `refund` and
  `confirm` rests on an event of the log for the on-chain id of its booking, under the hash it
  was made with, and so does every status that a booking has had and every payment row. The
  log only grows and a row keeps its on-chain id, so evidence once found is never lost.
-/
import PovDeposit.Joint.Chain
import PovDeposit.Api.Requests
import PovDeposit.Api.Payments

namespace PovDeposit.Joint

open PovDeposit.Lib
open PovDeposit.Api (Db BookingRow BookingStatus TransactionKind Phase Exchange Request Check path
  isText)
open PovDeposit.Api.Workflow (Call Paid)
open PovDeposit.Contract (Deployment LoggedEvent)

/-- An API that is configured for the deployed contract. -/
structure Setup where
  deployment : Deployment
  config : Api.Config
  contract : config.contractId = deployment.contract
  configured : config.contractId ≠ ""

structure State where
  chain : Chain
  server : Api.Server

abbrev State.log (s : State) : List LoggedEvent := s.chain.ledger.escrow.events

abbrev State.db (s : State) : Db := s.server.db

inductive Action where
  | chain (a : ChainAction)
  | api (a : Api.Action)

/-- The answers of the RPC server that come with an action of the API are true. -/
def State.truthful (s : State) : Api.Action → Bool
  | .verify i transaction events =>
      match (s.server.exchange? i).bind fun e => e.request.check? with
      | some check => Joint.truthful s.chain check.transactionHash transaction events
      | none => true
  | _ => true

def step (S : Setup) (s : State) : Action → Option State
  | .chain a => (chainStep S.deployment s.chain a).map fun chain => { s with chain := chain }
  | .api a =>
      if s.truthful a then
        (Api.step S.config s.server a).map fun server => { s with server := server }
      else none

/-- A contract that was just deployed and an API that was never called. -/
structure FreshSystem (S : Setup) (s : State) : Prop where
  chain : Fresh S.deployment s.chain
  server : Api.Fresh s.server

def machine (S : Setup) : Machine State Action where
  init := FreshSystem S
  step := step S

/-- What an action does to the ledger. -/
def Action.calls : Action → List Contract.Action
  | .chain a => a.calls
  | .api _ => []

/-! ## Evidence -/

/-- The event that a status rests on. -/
def evidence : BookingStatus → Option String
  | .funded => some "booking_funded"
  | .refunded => some "deposit_refunded"
  | .completed => some "visit_confirmed"
  | _ => none

/-- The status that comes with a payment. -/
def outcome : TransactionKind → BookingStatus
  | .fund => .funded
  | .refund => .refunded
  | .release => .released
  | .split => .split

/-- Where `status` rests on an event, the log has it for the booking, under the hash. -/
def Evident (log : List LoggedEvent) (db : Db) (status : BookingStatus) (id hash : String) : Prop :=
  ∀ name ∈ evidence status, ∃ row, db.bookings.lookup id = some row ∧
    Shown log name row.onChainBookingId hash

/-- A call that the API makes: verified, and with its event. -/
structure Grounded (log : List LoggedEvent) (db : Db) (c : Call) : Prop where
  evident : Evident log db c.op.target c.op.id c.op.hash
  verified : ∀ pay ∈ c.op.payment, pay.verification.isSome = true

structure Backed (S : Setup) (s : State) : Prop where
  logged : Logged S.deployment s.chain
  paid : Paid s.server.flow
  spelled : Api.Workflow.Spelled S.config.runtime s.db
  texts : ∀ id row, s.db.bookings.lookup id = some row →
    isText 100 row.renter = true ∧ isText 100 row.host = true
  found : ∀ i e b, s.server.exchange? i = some e → e.phase = .found b →
    ∃ row, s.db.Names S.config.runtime e.request.id row ∧
      row.onChainBookingId = b.onChainBookingId
  ready : ∀ i e c, s.server.exchange? i = some e → e.phase = .ready c →
    Grounded s.log s.db (c.read S.config.runtime)
  calls : ∀ i p, s.server.flow.call? i = some p → Grounded s.log s.db p.call
  rows : ∀ id row, s.db.bookings.lookup id = some row → ∀ status ∈ path row.status,
    ∃ hash, Evident s.log s.db status id hash
  payments : ∀ q ∈ s.db.payments, Evident s.log s.db (outcome q.kind) q.bookingId q.hash

theorem shown_mono {log log' : List LoggedEvent} {name bookingId hash : String}
    (hlog : log <+: log') (h : Shown log name bookingId hash) :
    Shown log' name bookingId hash := by
  obtain ⟨e, he, hshape⟩ := h
  exact ⟨e, hlog.subset he, hshape⟩

theorem Evident.mono {log log' : List LoggedEvent} {db db' : Db} {status : BookingStatus}
    {id hash : String} (h : Evident log db status id hash) (hlog : log <+: log')
    (hrows : ∀ row, db.bookings.lookup id = some row → ∃ row', db'.bookings.lookup id = some row' ∧
      row'.onChainBookingId = row.onChainBookingId) : Evident log' db' status id hash := by
  intro name hname
  obtain ⟨row, hrow, hshown⟩ := h name hname
  obtain ⟨row', hrow', hid⟩ := hrows row hrow
  exact ⟨row', hrow', hid ▸ shown_mono hlog hshown⟩

theorem Grounded.mono {log log' : List LoggedEvent} {db db' : Db} {c : Call} (h : Grounded log db c)
    (hlog : log <+: log')
    (hrows : ∀ row, db.bookings.lookup c.op.id = some row → ∃ row',
      db'.bookings.lookup c.op.id = some row' ∧ row'.onChainBookingId = row.onChainBookingId) :
    Grounded log' db' c :=
  ⟨h.evident.mono hlog hrows, h.verified⟩

/-- The call with its id as the workflow reads it. -/
theorem grounded_of_read {log : List LoggedEvent} {db : Db} {R : Api.Runtime} {c : Call} {id : String}
    (hread : R.uuid c.op.id = some id) (hevident : Evident log db c.op.target id c.op.hash)
    (hverified : ∀ pay ∈ c.op.payment, pay.verification.isSome = true) :
    Grounded log db (c.read R) := by
  constructor
  · rw [Api.Workflow.read_op, hread]
    exact hevident
  · rw [Api.Workflow.read_op]
    exact hverified

/-- What a checked request calls the workflow with. -/
theorem call_of_check {request : Request} {check : Check} (h : request.check? = some check)
    (v : Api.Workflow.Verification) :
    (check.call v).op.id = request.id ∧ (check.call v).op.hash = check.transactionHash ∧
      evidence (check.call v).op.target = some check.expectedEvent ∧
      ∀ pay ∈ (check.call v).op.payment, pay.verification.isSome = true := by
  cases request <;> cases h <;> exact ⟨rfl, rfl, rfl, fun pay hpay => by cases hpay <;> rfl⟩

theorem parse_texts {R : Api.Runtime} {body : Api.CreateInput}
    {input : Api.Workflow.CreateBooking} (h : body.parse R = some input) :
    isText 100 input.renter = true ∧ isText 100 input.host = true := by
  simp only [Api.CreateInput.parse, Option.ite_none_right_eq_some, Bool.and_eq_true,
    Option.some.injEq] at h
  obtain ⟨⟨⟨⟨⟨⟨-, hrenter⟩, hhost⟩, -⟩, -⟩, -⟩, rfl⟩ := h
  exact ⟨hrenter, hhost⟩

theorem outcome_of_payment {c : Call} {kind : TransactionKind}
    {v : Option Api.Workflow.Verification} {missing : String}
    (h : c.op.payment = some ⟨kind, v, missing⟩) : outcome kind = c.op.target := by
  cases c <;> cases h <;> rfl

theorem backed_of_fresh {S : Setup} {s : State} (h : FreshSystem S s) : Backed S s := by
  have hbookings : s.db.bookings = ∅ := h.server.flow.bookings
  have hpayments : s.db.payments = [] := h.server.flow.payments
  refine ⟨logged_of_fresh h.chain, Api.Workflow.paid_of_fresh h.server.flow,
    Api.Workflow.spelled_of_fresh h.server.flow, ?_, ?_, ?_, ?_, ?_, ?_⟩
  · intro id row hrow
    rw [hbookings, AList.lookup_empty] at hrow
    cases hrow
  · intro i e b he
    rw [Api.Server.exchange?, h.server.exchanges] at he
    cases he
  · intro i e c he
    rw [Api.Server.exchange?, h.server.exchanges] at he
    cases he
  · intro i p hp
    rw [Api.Workflow.State.call?, h.server.flow.calls] at hp
    cases hp
  · intro id row hrow
    rw [hbookings, AList.lookup_empty] at hrow
    cases hrow
  · intro q hq
    rw [hpayments] at hq
    cases hq

/-! ## Steps of the workflow -/

section Flow

variable {S : Setup} {s : State} {flow : Api.Workflow.State} {fa : Api.Workflow.Action}
  (h : Backed S s)
  (hstep : Api.Workflow.step S.config.runtime S.config.network s.server.flow fa = some flow)
include h hstep

theorem Backed.rows_keep {id : String} {row : BookingRow} (hrow : s.db.bookings.lookup id = some row) :
    ∃ row', flow.db.bookings.lookup id = some row' ∧
      row'.onChainBookingId = row.onChainBookingId := by
  obtain ⟨row', hrow', hterms⟩ := Api.Workflow.terms_step h.paid.coherent hstep hrow
  exact ⟨row', hrow', hterms.onChainBookingId⟩

theorem Backed.evident_keep {status : BookingStatus} {id hash : String}
    (he : Evident s.log s.db status id hash) : Evident s.log flow.db status id hash :=
  he.mono List.prefix_rfl fun _ hrow => h.rows_keep hstep hrow

/-- A row that a call moved rests on the evidence of that call, and on that of its path. -/
theorem Backed.rows_step {id : String} {row' : BookingRow}
    (hrow' : flow.db.bookings.lookup id = some row') {status : BookingStatus}
    (hstatus : status ∈ path row'.status) : ∃ hash, Evident s.log flow.db status id hash := by
  cases hrow : s.db.bookings.lookup id with
  | none =>
    rw [Api.Workflow.new_row_step h.paid.coherent hstep hrow hrow'] at hstatus
    obtain rfl : status = .pendingFunding := List.mem_singleton.mp hstatus
    exact ⟨"", fun name hname => by cases hname⟩
  | some row =>
    -- what the row rested on before
    have hold : status ∈ path row.status → ∃ hash, Evident s.log flow.db status id hash := by
      intro hmem
      obtain ⟨hash, he⟩ := h.rows id row hrow status hmem
      exact ⟨hash, h.evident_keep hstep he⟩
    obtain ⟨x, hx, hcases⟩ := Api.Workflow.row_step h.paid.coherent hstep hrow
    obtain rfl : row' = x := by simpa [hrow'] using hx
    rcases hcases with rfl | ⟨i, p, -, hp, rfl, hadmits, rfl⟩
    · exact hold hstatus
    · have hsource := (Api.Workflow.admits_iff.mp hadmits).1
      have hpath : path (p.op.apply row).status = path row.status ++ [p.op.target] := by
        rw [hsource]
        exact Api.Workflow.path_target p.call
      rw [hpath, List.mem_append, List.mem_singleton] at hstatus
      rcases hstatus with hmem | rfl
      · exact hold hmem
      · exact ⟨p.op.hash, h.evident_keep hstep (h.calls i p hp).evident⟩

/-- A step of the workflow; the evidence of a new call is there when it arrives. -/
theorem Backed.flow_step
    (htexts : ∀ id row, flow.db.bookings.lookup id = some row →
      isText 100 row.renter = true ∧ isText 100 row.host = true)
    (hnew : ∀ c, fa = .call c → Grounded s.log s.db (c.read S.config.runtime)) :
    Backed S { s with server := { s.server with flow := flow } } := by
  have hkeep : ∀ {c}, Grounded s.log s.db c → Grounded s.log flow.db c :=
    fun hc => hc.mono List.prefix_rfl fun _ hrow => h.rows_keep hstep hrow
  refine ⟨h.logged, Api.Workflow.paid_step _ _ _ h.paid hstep,
    Api.Workflow.spelled_step h.paid.coherent h.spelled hstep, htexts, ?_,
    fun i e c he hc => hkeep (h.ready i e c he hc), ?_, ?_, ?_⟩
  · intro i e b he hb
    obtain ⟨row, ⟨id, hread, hrow⟩, hid⟩ := h.found i e b he hb
    obtain ⟨row', hrow', hsame⟩ := h.rows_keep hstep hrow
    exact ⟨row', ⟨id, hread, hrow'⟩, hsame.trans hid⟩
  · intro i p hp
    refine hkeep ?_
    rcases Api.Workflow.call_of_step hstep hp with ⟨q, hq, hcall⟩ | ⟨c, hc, hp'⟩
    · rw [← hcall]
      exact h.calls i q hq
    · rw [hp']
      exact hnew c hc
  · intro id row hrow status hstatus
    exact h.rows_step hstep hrow hstatus
  · intro q hq
    refine h.evident_keep hstep ?_
    rcases Api.Workflow.payments_step hstep with hsame | ⟨i, p, b, kind, v, missing, hp, hpay, hadd⟩
    · rw [State.db, Api.Server.db, hsame] at hq
      exact h.payments q hq
    · rw [State.db, Api.Server.db, hadd, List.mem_append, List.mem_singleton] at hq
      rcases hq with hq | rfl
      · exact h.payments q hq
      · show Evident _ _ (outcome kind) p.op.id p.op.hash
        rw [outcome_of_payment hpay]
        exact (h.calls i p hp).evident

end Flow

/-! ## Steps of the exchanges -/

section Exchanges

variable {S : Setup} {s : State} {server : Api.Server}

/-- A step that changes no table and no call, with what it makes of the exchanges. -/
theorem Backed.exchanges_step (h : Backed S s) (hflow : server.flow = s.server.flow)
    (hnew : ∀ j e, server.exchange? j = some e → s.server.exchange? j = some e ∨
      (∀ b, e.phase = .found b → ∃ row, s.db.Names S.config.runtime e.request.id row ∧
        row.onChainBookingId = b.onChainBookingId) ∧
      ∀ c, e.phase = .ready c → Grounded s.log s.db (c.read S.config.runtime)) :
    Backed S { s with server := server } := by
  have hdb : server.db = s.db := congrArg Api.Workflow.State.db hflow
  have hdb' : State.db { s with server := server } = s.db := hdb
  have hcalls : ∀ i, server.flow.call? i = s.server.flow.call? i := fun i => by rw [hflow]
  refine ⟨h.logged, hflow ▸ h.paid, ?_, ?_, ?_, ?_, ?_, ?_, ?_⟩
  · rw [hdb']
    exact h.spelled
  · rw [hdb']
    exact h.texts
  · intro j e b he hb
    rw [hdb']
    rcases hnew j e he with hold | ⟨hfound, -⟩
    · exact h.found j e b hold hb
    · exact hfound b hb
  · intro j e c he hc
    rw [hdb']
    rcases hnew j e he with hold | ⟨-, hready⟩
    · exact h.ready j e c hold hc
    · exact hready c hc
  · intro i p hp
    rw [hdb']
    exact h.calls i p ((hcalls i).symm.trans hp)
  · rw [hdb']
    exact h.rows
  · rw [hdb']
    exact h.payments

/-- One exchange moves on to a phase that asks for no evidence, or for evidence that is there. -/
theorem Backed.turn_step (h : Backed S s) {i : Nat} {e : Exchange} {phase : Phase}
    (he : s.server.exchange? i = some e)
    (hfound : ∀ b, phase = .found b → ∃ row, s.db.Names S.config.runtime e.request.id row ∧
      row.onChainBookingId = b.onChainBookingId)
    (hready : ∀ c, phase = .ready c → Grounded s.log s.db (c.read S.config.runtime)) :
    Backed S { s with server := s.server.turn i { e with phase := phase } } := by
  refine h.exchanges_step rfl fun j x hx => ?_
  rcases Api.exchange?_of_turn he rfl hx with ⟨rfl, rfl⟩ | ⟨-, hold⟩
  · exact .inr ⟨hfound, hready⟩
  · exact .inl hold

/-- A phase that asks for no evidence. -/
theorem Backed.plain_turn (h : Backed S s) {i : Nat} {e : Exchange} {phase : Phase}
    (he : s.server.exchange? i = some e) (hfound : ∀ b, phase ≠ .found b)
    (hready : ∀ c, phase ≠ .ready c) :
    Backed S { s with server := s.server.turn i { e with phase := phase } } :=
  h.turn_step he (fun b hb => absurd hb (hfound b)) fun c hc => absurd hc (hready c)

/-- The phases that handlers reach by themselves. -/
theorem Backed.turn (h : Backed S s) {a : Api.Action} {i : Nat} {e : Exchange} {phase : Phase}
    (htrue : s.truthful a = true) (he : s.server.exchange? i = some e)
    (hturn : Api.Turn S.config s.server a i e phase) :
    Backed S { s with server := s.server.turn i { e with phase := phase } } := by
  cases hturn with
  | found b row ha hkind hphase hrow hb =>
    refine h.turn_step he (fun x hx => ?_) fun c hc => by cases hc
    cases hx
    exact ⟨row, hrow, by rw [hb]; rfl⟩
  | verified transaction events check b v ha hcheck hphase hv =>
    refine h.turn_step he (fun x hx => by cases hx) fun c hc => ?_
    cases hc
    obtain ⟨row, ⟨id, hread, hrow⟩, hid⟩ := h.found i e b he hphase
    obtain ⟨hcall, hhash, hevidence, hverified⟩ := call_of_check hcheck v
    rw [← hcall] at hread
    -- the answers of this step are true
    have hanswers : Joint.truthful s.chain check.transactionHash transaction events = true := by
      rw [ha] at htrue
      simpa [State.truthful, he, hcheck] using htrue
    refine grounded_of_read hread (fun name hname => ?_) hverified
    rw [hevidence, Option.mem_def, Option.some.injEq] at hname
    subst hname
    rw [hhash]
    exact ⟨row, hrow, hid ▸ shown_of_verified hanswers hv⟩
  | issuing => exact h.plain_turn he (fun _ hb => by cases hb) fun _ hc => by cases hc
  | spending => exact h.plain_turn he (fun _ hb => by cases hb) fun _ hc => by cases hc
  | rejected => exact h.plain_turn he (fun _ hb => by cases hb) fun _ hc => by cases hc

end Exchanges

/-! ## The invariant -/

/-- The chain goes on by itself: more is logged, nothing else changes. -/
theorem Backed.chain_step {S : Setup} {s : State} (h : Backed S s) {a : ChainAction} {chain : Chain}
    (hstep : chainStep S.deployment s.chain a = some chain) :
    Backed S { s with chain := chain } := by
  obtain ⟨hlogged, hlog⟩ := logged_step h.logged hstep
  have hkeep : ∀ {status id hash}, Evident s.log s.db status id hash →
      Evident chain.ledger.escrow.events s.db status id hash :=
    fun he => he.mono hlog fun row hrow => ⟨row, hrow, rfl⟩
  refine ⟨hlogged, h.paid, h.spelled, h.texts, h.found,
    fun i e c he hc => ⟨hkeep (h.ready i e c he hc).evident, (h.ready i e c he hc).verified⟩,
    fun i p hp => ⟨hkeep (h.calls i p hp).evident, (h.calls i p hp).verified⟩,
    fun id row hrow status hstatus => ?_, fun q hq => hkeep (h.payments q hq)⟩
  obtain ⟨hash, he⟩ := h.rows id row hrow status hstatus
  exact ⟨hash, hkeep he⟩

/-- The schema of `create` keeps the parties of a row short. -/
theorem Backed.texts_step {S : Setup} {s : State} (h : Backed S s) {a : Api.Action}
    {server : Api.Server} (hstep : Api.step S.config s.server a = some server) (id : String)
    (row : BookingRow) (hrow : server.db.bookings.lookup id = some row) :
    isText 100 row.renter = true ∧ isText 100 row.host = true := by
  rcases Api.row_of_step h.paid.coherent hstep hrow with ⟨old, hold, hterms⟩ |
    ⟨sender, now, uuid, body, input, -, hparse, -, hcreated⟩
  · rw [hterms.renter, hterms.host]
    exact h.texts id old hold
  · rw [hcreated.renter, hcreated.host]
    exact parse_texts hparse

theorem Backed.api_step {S : Setup} {s : State} (h : Backed S s) {a : Api.Action}
    {server : Api.Server} (htrue : s.truthful a = true)
    (hstep : Api.step S.config s.server a = some server) :
    Backed S { s with server := server } := by
  have htexts := h.texts_step hstep
  cases Api.serves_of_step hstep with
  | drive a fa flow ha hflow =>
    refine h.flow_step hflow htexts fun c hc => ?_
    rw [hc] at ha
    cases a <;> simp [Api.Action.drives] at ha
  | refused => exact h
  | receive sender request phase hphase =>
    refine h.exchanges_step rfl fun j e he => ?_
    rcases getElem?_of_concat he with hold | ⟨-, rfl⟩
    · exact .inl hold
    · refine .inr ⟨fun b hb => ?_, fun c hc => ?_⟩
      · simp only [hphase] at hb
        split at hb <;> cases hb
      · simp only [hphase] at hc
        split at hc <;> cases hc
  | turn a i e phase he hturn => exact h.turn htrue he hturn
  | store i e payload t id he hphase hid hnew flow hflow =>
    exact (h.flow_step hflow htexts fun c hc => by cases hc).plain_turn (e := e) he
      (fun _ hb => by cases hb) fun _ hc => by cases hc
  | spend i now e id actor token payload c he hrequest hphase hfound hunspent flow hflow =>
    refine (h.flow_step hflow htexts fun c hc => by cases hc).turn_step (e := e) he
      (fun _ hb => by cases hb) fun c hc => ?_
    -- a check-in rests on no event and has no payment
    cases hc
    exact ⟨fun name hname => (by cases hname), fun pay hpay => by cases hpay⟩
  | forward i e call he hphase flow hflow =>
    refine (h.flow_step hflow htexts fun c hc => ?_).plain_turn (e := e) he
      (fun _ hb => by cases hb) fun _ hc => by cases hc
    cases hc
    exact h.ready i e call he hphase
  | auth sender action wallets auth flow hflow =>
    have hquiet := h.flow_step hflow htexts fun c hc => by cases hc
    exact hquiet.exchanges_step rfl fun j e he => .inl he

theorem backed_step {S : Setup} (s : State) (a : Action) (s' : State) (h : Backed S s)
    (hstep : step S s a = some s') : Backed S s' := by
  cases a with
  | chain a =>
    obtain ⟨chain, hchain, rfl⟩ := Option.map_eq_some_iff.mp hstep
    exact h.chain_step hchain
  | api a =>
    simp only [step, Option.ite_none_right_eq_some, Option.map_eq_some_iff] at hstep
    obtain ⟨htrue, server, hserver, rfl⟩ := hstep
    exact h.api_step htrue hserver

theorem backed_of_exec {S : Setup} {s₀ s : State} {as : List Action} (h₀ : FreshSystem S s₀)
    (hrun : (machine S).exec s₀ as = some s) : Backed S s :=
  (machine S).exec_invariant backed_step hrun (backed_of_fresh h₀)

/-! ## A sample -/

section Sample

def sampleSetup : Setup where
  deployment := ⟨"escrow", 300000⟩
  config := Api.sampleConfig
  contract := rfl
  configured := by decide

/-- A new contract among funded wallets, and an API with one listed property. -/
def sampleStart : State where
  chain := ⟨Contract.freshLedger ⟨"escrow", 300000⟩ 1892809000 7 500000 fun _ _ => 10000000, []⟩
  server := Api.listedServer

theorem fresh_sampleStart : FreshSystem sampleSetup sampleStart :=
  ⟨⟨Contract.fresh_freshLedger _ _ _ _ _, rfl⟩, Api.fresh_listedServer⟩

/-- A successful transaction with one call, signed by its caller alone. -/
def callOf (hash caller : String) (call : Contract.Call) : Action :=
  .chain (.transaction hash true [⟨[caller], fun _ _ _ _ => true, call⟩])

def setUpEscrow : Action :=
  callOf "e85130791f31db1699f61a5e7ae7b5e85e70399414f38476091896214771cd17" "admin"
    (.initializeEscrow "admin" "XLM")

/-- The slot is booked at the API and, with the same terms, on chain. -/
def bookBoth : List Action :=
  [.api Api.bookRequest,
   callOf "5a9392784e07eb40cfb3f4a464e0a91451f573eeb59d600983e190bd8aaddca6" "renter"
     (.createBooking 4261549847195894357 "renter" "host" 1000000 1893492000)]

/-- The deposit goes in. -/
def fundOnChain : Action :=
  callOf "2514e1475addffb378fdb07e9a1092176c09dbfbd129ebcaacd0099818d2534c" "renter"
    (.fundBooking "renter" 4261549847195894357)

/-- The deposit goes in, and the API is told. -/
def fundBoth : List Action :=
  fundOnChain :: Api.fundRequest.map .api

/-- The deposit goes back. -/
def cancelOnChain : Action :=
  callOf "369d8e27270351b658b102785616797dab62b659058ca2494872b6bd0181aca4" "renter"
    (.cancelBooking "renter" 4261549847195894357)

/-- The renter's `cancel` request: exchange 1 and call 1. -/
def cancelRequest : List Api.Action :=
  Api.settlingRun "renter" (.cancel "3b241101-e2bb-4255-8caf-4136c566a962" "renter"
      "369d8e27270351b658b102785616797dab62b659058ca2494872b6bd0181aca4")
    (.success 7 1892809000)
    [⟨true, "369d8e27270351b658b102785616797dab62b659058ca2494872b6bd0181aca4",
      [.string "deposit_refunded", .integer 4261549847195894357]⟩] 1 1 6

end Sample

end PovDeposit.Joint
