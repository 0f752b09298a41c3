/-
  What the pages report is true.

  A page shows a booking as it was at some moment, since answers only age; the parties and the
  on-chain id in it are those of the row for good. So the calls that a page has signed are
  about the booking of its row, and once `getTransaction` has answered `SUCCESS` their events
  are in the log under the hash (`Site.Sound`). The report that follows can therefore be acted
  on whenever its row is in the state that it starts from (`reports_are_evident`).
-/
import PovDeposit.Joint.Deal
import PovDeposit.Joint.Pages

namespace PovDeposit.Joint

open PovDeposit.Lib
open PovDeposit.Contract (Address)
open PovDeposit.Api (BookingRow BookingStatus Check CreateInput Db Request onChainBookingId path)
open PovDeposit.Api.Workflow (Past Recalled)

/-! ## What a signed call leads to -/

/-- The event that the request is verified against. -/
def Report.event : Report → String
  | .fund => "booking_funded"
  | .cancel => "deposit_refunded"
  | .confirm => "visit_confirmed"

/-- The run that ends with the report was the wallet's to begin. -/
def Report.By (report : Report) (b : Api.Workflow.Booking) (wallet : Address) : Prop :=
  match report with
  | .fund => wallet = b.renter
  | .cancel => wallet = b.renter ∧ b.state = .funded
  | .confirm => wallet = b.host ∧ b.state = .checkedIn

/-- A call that publishes an event with this name about the on-chain id. -/
def About (id : String) (call : Contract.Call) (name : String) : Prop :=
  ∃ n, published call = some (name, n) ∧ idText n = id

/-- Calls that create a booking and then do what the report is about. -/
def Leads (id : String) (report : Report) : List Contract.Call → Prop
  | [] => False
  | [call] => About id call report.event
  | call :: next :: rest => About id call "booking_created" ∧ Leads id report (next :: rest)

theorem leads_head {id : String} {report : Report} {call : Contract.Call}
    {rest : List Contract.Call} (h : Leads id report (call :: rest)) :
    About id call "booking_created" ∨ About id call report.event := by
  cases rest with
  | nil => exact .inr h
  | cons next rest => exact .inl h.1

/-- The text of an on-chain id is read as the `u64` that it stands for. -/
theorem read_onChain (sdk : Sdk) {uuid id : String} (h : onChainBookingId uuid = some id) :
    ∃ n, idText n = id ∧ (bigInt id).bind (u64ToScVal sdk) = some (.u64 n) := by
  obtain ⟨m, hm, rfl⟩ := onChainBookingId_lt h
  have hn : idText (UInt64.ofNat m) = toString m := by rw [idText, UInt64.toNat_ofNat_of_lt' hm]
  exact ⟨UInt64.ofNat m, hn, hn ▸ u64ToScVal_toString sdk _⟩

theorem escrowCall_about {sdk : Sdk} {method : EscrowMethod} {wallet : Address}
    {uuid id : String} (hid : onChainBookingId uuid = some id) {call : Contract.Call}
    (h : escrowCall sdk method wallet id = some call) :
    ∃ n, idText n = id ∧ call = method.call wallet n := by
  obtain ⟨n, hn, hread⟩ := read_onChain sdk hid
  simp only [escrowCall, hread, addressToScVal, Option.bind_eq_bind, Option.bind_some] at h
  split at h
  · cases h
    exact ⟨n, hn, rfl⟩
  · cases h

theorem formCall_about {R : Api.Runtime} {sdk : Sdk} {body : CreateInput}
    {uuid id : String} (hid : onChainBookingId uuid = some id) {call : Contract.Call}
    (h : formCall R sdk body id = some call) : About id call "booking_created" := by
  obtain ⟨n, hn, hread⟩ := read_onChain sdk hid
  obtain ⟨args, hargs, hcall⟩ := Option.bind_eq_some_iff.mp h
  simp only [bookingArguments, formInput, hread, Option.bind_eq_bind, Option.bind_some,
    Option.bind_eq_some_iff, Option.pure_def, Option.some.injEq] at hargs
  obtain ⟨renter, -, host, -, amount, -, time, -, rfl⟩ := hargs
  unfold createCall at hcall
  split at hcall
  · rename_i heq
    cases heq
    cases hcall
    exact ⟨n, rfl, hn⟩
  · cases hcall

/-- What a committed call adds to the log. -/
theorem events_of_published {env : Contract.Env} {σ σ' : Contract.Escrow} {call : Contract.Call}
    (heff : Contract.Effect env σ call σ') :
    (published call = none ∧ σ'.events = σ.events) ∨
      ∃ event, published call = some (eventName event, event.bookingId) ∧
        σ'.events = σ.events ++ [⟨env.txHash, env.sequence, event⟩] := by
  cases heff with
  | initializeEscrow => exact .inl ⟨rfl, rfl⟩
  | booking => exact .inl ⟨rfl, rfl⟩
  | _ => exact .inr ⟨_, rfl, rfl⟩

/-- What a transaction that a page has sent adds to the log: the event of its call, if it
    succeeds and its call has one. -/
theorem log_of_carries {S : Setup} {s : State} {chain : Chain} (hlogged : Logged S.deployment s.chain)
    {hash : String} {successful : Bool} {calls : List Invocation} {wallet : Address}
    {call : Contract.Call} (hcarries : s.carries S hash successful calls wallet call = true)
    (hstep : chainStep S.deployment s.chain (.transaction hash successful calls) = some chain) :
    ((successful = false ∨ published call = none) ∧ chain.ledger.escrow.events = s.log) ∨
      ∃ event, published call = some (eventName event, event.bookingId) ∧
        chain.ledger.escrow.events = s.log ++ [⟨hash, s.chain.ledger.sequence, event⟩] := by
  simp only [chainStep, Option.ite_none_left_eq_some] at hstep
  obtain ⟨-, hstep⟩ := hstep
  cases successful with
  | false =>
    cases hstep
    exact .inl ⟨.inl rfl, rfl⟩
  | true =>
    obtain ⟨l, hl, rfl⟩ := Option.map_eq_some_iff.mp hstep
    unfold State.carries at hcarries
    split at hcarries
    · rename_i c
      simp only [Bool.and_eq_true, decide_eq_true_eq] at hcarries
      obtain ⟨⟨hauths, hcall⟩, hok⟩ := hcarries
      obtain ⟨t, ht, hlast⟩ := (Contract.ledgerMachine S.deployment).exec_cons_eq_some.mp hl
      obtain rfl : t = l := Option.some.inj hlast
      change Contract.ledgerStep S.deployment s.chain.ledger
        (.invoke hash c.auths c.tokenAccepts c.call) = some t at ht
      rw [hauths, hcall] at ht
      simp only [Contract.ledgerStep, Option.ite_none_left_eq_some] at ht
      obtain ⟨-, ht⟩ := ht
      -- the call was accepted, and so its effect is committed
      split at ht
      · rename_i σ hσ
        cases ht
        have heff := Contract.effect_of_invoke hlogged.chronicled.recorded.solvent.keyed hσ
        rcases events_of_published heff with ⟨hnone, hsame⟩ | hevent
        · exact .inl ⟨.inr hnone, hsame⟩
        · exact .inr hevent
      · rename_i f hf
        rw [hf] at hok
        cases hok
    · cases hcarries

/-! ## The invariant -/

/-- The booking that a page has is one that the API has answered. -/
abbrev Answered (S : Setup) (s : State) (b : Api.Workflow.Booking) : Prop :=
  Past S.config.network s.db b.id b

/-- Under the hash, nothing has succeeded without the event of the call. -/
structure Signed (s : State) (e : String × Address × Contract.Call) : Prop where
  hash : isTransactionHash e.1 = true
  shown : ∀ t ∈ s.chain.transactions, t.hash = e.1 → t.successful = true →
    ∀ name n, published e.2.2 = some (name, n) → Shown s.log name (idText n) e.1

def Stage.Sound (s : State) (signed : List (String × Address × Contract.Call)) (wallet : Address)
    (b : Api.Workflow.Booking) : Stage → Prop
  | .signing call rest report => Leads b.onChainBookingId report (call :: rest) ∧ report.By b wallet
  | .polling call rest report hash _ =>
      Leads b.onChainBookingId report (call :: rest) ∧ report.By b wallet ∧
        (hash, wallet, call) ∈ signed
  | .reporting request => request.check?.isSome = true → ∃ (report : Report) (hash : String),
      request = report.request b.id wallet hash ∧ report.By b wallet ∧
        isTransactionHash hash = true ∧ Shown s.log report.event b.onChainBookingId hash
  | .waiting _ _ => True

structure Site.Sound (S : Setup) (x : Site) : Prop where
  backed : Backed S x.system
  labelled : Labelled x.system
  recalled : Recalled S.config.network x.system.server.flow
  signed : ∀ e ∈ x.signed, Signed x.system e
  bookings : ∀ (k : Nat) (p : Page) b, x.pages[k]? = some p → p.booking = some b →
    Answered S x.system b
  tasks : ∀ (k : Nat) (p : Page) (t : Task), x.pages[k]? = some p → p.task = some t →
    Answered S x.system t.booking ∧ t.stage.Sound x.system x.signed t.wallet t.booking

theorem sound_of_fresh {S : Setup} {sdk : Sdk} {x : Site}
    (h : (siteMachine S sdk).init x) : x.Sound S := by
  obtain ⟨hsystem, hpages, hsigned⟩ := h
  refine ⟨backed_of_fresh hsystem, labelled_of_fresh hsystem,
    Api.Workflow.recalled_of_fresh hsystem.server.flow, ?_, ?_, ?_⟩
  · simp [hsigned]
  · simp [hpages]
  · simp [hpages]

/-- What a page knows of a booking is true of the row, but for its state and its hashes. -/
theorem Answered.row {S : Setup} {s : State} {b : Api.Workflow.Booking} (h : Answered S s b) :
    ∃ row, s.db.bookings.lookup b.id = some row ∧ row.id = b.id ∧
      row.onChainBookingId = b.onChainBookingId ∧ row.renter = b.renter ∧ row.host = b.host ∧
      path b.state <+: path row.status := by
  obtain ⟨row, hrow, hlater⟩ := h
  exact ⟨row, hrow, congrArg Api.BookingResponse.id hlater.terms,
    congrArg Api.BookingResponse.onChainBookingId hlater.terms,
    congrArg Api.BookingResponse.renter hlater.terms,
    congrArg Api.BookingResponse.host hlater.terms, hlater.state⟩

theorem Stage.Sound.mono {s s' : State} {signed signed' : List (String × Address × Contract.Call)}
    {wallet : Address} {b : Api.Workflow.Booking} {stage : Stage}
    (h : stage.Sound s signed wallet b) (hlog : s.log <+: s'.log) (hsigned : signed ⊆ signed') :
    stage.Sound s' signed' wallet b := by
  cases stage with
  | signing call rest report => exact h
  | polling call rest report hash left => exact ⟨h.1, h.2.1, hsigned h.2.2⟩
  | reporting request =>
    intro hcheck
    obtain ⟨report, hash, hrequest, hby, hhash, hshown⟩ := h hcheck
    exact ⟨report, hash, hrequest, hby, hhash, shown_mono hlog hshown⟩
  | waiting request i => trivial

section System

variable {S : Setup} {s s' : State} {a : Action}

theorem recalled_of_step (h : Recalled S.config.network s.server.flow)
    (hstep : step S s a = some s') : Recalled S.config.network s'.server.flow ∧
      ∀ b, Answered S s b → Answered S s' b := by
  cases a with
  | chain a =>
    obtain ⟨chain, -, rfl⟩ := Option.map_eq_some_iff.mp hstep
    exact ⟨h, fun b hb => hb⟩
  | api a =>
    simp only [step, Option.ite_none_right_eq_some, Option.map_eq_some_iff] at hstep
    obtain ⟨-, server, hserver, rfl⟩ := hstep
    rcases Api.flow_of_step hserver with hsame | ⟨fa, hfa⟩
    · refine ⟨by rw [hsame]; exact h, fun b hb => ?_⟩
      show Past _ server.flow.db _ b
      rw [hsame]
      exact hb
    · exact ⟨Api.Workflow.recalled_step _ _ _ h hfa, fun b hb => h.past_step hfa hb⟩

theorem log_of_step (h : Backed S s) (hstep : step S s a = some s') : s.log <+: s'.log := by
  cases a with
  | chain a =>
    obtain ⟨chain, hchain, rfl⟩ := Option.map_eq_some_iff.mp hstep
    exact (logged_step h.logged hchain).2
  | api a =>
    simp only [step, Option.ite_none_right_eq_some, Option.map_eq_some_iff] at hstep
    obtain ⟨-, server, -, rfl⟩ := hstep
    exact List.prefix_rfl

/-- The transactions of the chain after a step: one more, if it is one. -/
theorem transactions_of_step (hstep : step S s a = some s') :
    s'.chain.transactions = s.chain.transactions ∨
      ∃ hash successful calls, a = .chain (.transaction hash successful calls) ∧
        s'.chain.transactions = s.chain.transactions ++ [s.chain.record hash successful] := by
  cases a with
  | api a =>
    simp only [step, Option.ite_none_right_eq_some, Option.map_eq_some_iff] at hstep
    obtain ⟨-, server, -, rfl⟩ := hstep
    exact .inl rfl
  | chain a =>
    obtain ⟨chain, hchain, rfl⟩ := Option.map_eq_some_iff.mp hstep
    cases a with
    | close timestamp sequence =>
      obtain ⟨l, -, rfl⟩ := Option.map_eq_some_iff.mp hchain
      exact .inl rfl
    | tokens balances =>
      cases hchain
      exact .inl rfl
    | transaction hash successful calls =>
      refine .inr ⟨hash, successful, calls, rfl, ?_⟩
      simp only [chainStep, Option.ite_none_left_eq_some] at hchain
      obtain ⟨-, hchain⟩ := hchain
      cases successful with
      | true =>
        obtain ⟨l, -, rfl⟩ := Option.map_eq_some_iff.mp hchain
        rfl
      | false =>
        cases hchain
        rfl

end System

section Moves

variable {S : Setup} {x : Site} (h : x.Sound S)
include h

theorem Site.Sound.signed_step {a : Action} {s : State} (hadmits : x.admits S a = true)
    (hstep : Joint.step S x.system a = some s) {e : String × Address × Contract.Call}
    (he : e ∈ x.signed) : Signed s e := by
  obtain ⟨hhash, hshown⟩ := h.signed e he
  have hlog := log_of_step h.backed hstep
  refine ⟨hhash, fun t ht hsame hsuccess name n hname => ?_⟩
  rcases transactions_of_step hstep with hkeep | ⟨hash, successful, calls, rfl, hnew⟩
  · rw [hkeep] at ht
    exact shown_mono hlog (hshown t ht hsame hsuccess name n hname)
  · rw [hnew] at ht
    rcases List.mem_append.mp ht with ht | ht
    · exact shown_mono hlog (hshown t ht hsame hsuccess name n hname)
    · -- the transaction that was just applied is the one that was signed
      obtain rfl := List.mem_singleton.mp ht
      obtain rfl : hash = e.1 := hsame
      have hcarries : x.system.carries S e.1 successful calls e.2.1 e.2.2 = true := by
        have hall := List.all_eq_true.mp hadmits e he
        simpa using hall
      obtain ⟨chain, hchain, rfl⟩ := Option.map_eq_some_iff.mp hstep
      have hsuccess' : successful = true := hsuccess
      rcases log_of_carries h.backed.logged hcarries hchain with ⟨hno, -⟩ | ⟨event, hevent, hnew⟩
      · rw [hsuccess', hname] at hno
        simp at hno
      · rw [hname, Option.some.injEq, Prod.mk.injEq] at hevent
        obtain ⟨rfl, rfl⟩ := hevent
        refine ⟨⟨e.1, x.system.chain.ledger.sequence, event⟩, ?_, rfl, rfl, rfl⟩
        show _ ∈ chain.ledger.escrow.events
        rw [hnew]
        exact List.mem_append_right _ (List.mem_singleton_self _)

/-- A step of the system, where it applies what was signed, leaves a sound site. -/
theorem Site.Sound.moved {a : Action} {s : State} (hadmits : x.admits S a = true)
    (hstep : Joint.step S x.system a = some s) : ({ x with system := s } : Site).Sound S := by
  obtain ⟨hrecalled, hanswered⟩ := recalled_of_step h.recalled hstep
  have hlog := log_of_step h.backed hstep
  refine ⟨backed_step _ _ _ h.backed hstep, labelled_step h.backed h.labelled hstep, hrecalled,
    fun e he => h.signed_step hadmits hstep he,
    fun k p b hp hb => hanswered b (h.bookings k p b hp hb),
    fun k p t hp ht => ?_⟩
  obtain ⟨hbooking, hstage⟩ := h.tasks k p t hp ht
  exact ⟨hanswered _ hbooking, hstage.mono hlog fun _ he => he⟩

/-- A page that turns into one that is sound leaves a sound site. -/
theorem Site.Sound.turned {k : Nat} {p p' : Page} (hp : x.pages[k]? = some p)
    (new : List (String × Address × Contract.Call)) (hnew : ∀ e ∈ new, Signed x.system e)
    (hbooking : ∀ b ∈ p'.booking, Answered S x.system b)
    (htask : ∀ t ∈ p'.task, Answered S x.system t.booking ∧
      t.stage.Sound x.system (x.signed ++ new) t.wallet t.booking) :
    (⟨x.system, x.pages.set k p', x.signed ++ new⟩ : Site).Sound S := by
  obtain ⟨hk, -⟩ := List.getElem?_eq_some_iff.mp hp
  refine ⟨h.backed, h.labelled, h.recalled, fun e he => ?_, fun j q b hq hb => ?_,
    fun j q t hq ht => ?_⟩
  · rcases List.mem_append.mp he with he | he
    · exact h.signed e he
    · exact hnew e he
  · rcases getElem?_of_set hk hq with ⟨-, rfl⟩ | ⟨-, hq⟩
    · exact hbooking b hb
    · exact h.bookings j q b hq hb
  · rcases getElem?_of_set hk hq with ⟨-, rfl⟩ | ⟨-, hq⟩
    · exact htask t ht
    · obtain ⟨hanswered, hstage⟩ := h.tasks j q t hq ht
      exact ⟨hanswered, hstage.mono List.prefix_rfl (List.subset_append_left _ _)⟩

end Moves

/-! ## What a page does -/

section Pages

variable {S : Setup} {sdk : Sdk} {x : Site} (h : x.Sound S)
include h

theorem Site.Sound.onChain {b : Api.Workflow.Booking} (hb : Answered S x.system b) :
    onChainBookingId b.id = some b.onChainBookingId := by
  obtain ⟨row, hrow, -, honChain, -⟩ := hb.row
  rw [h.labelled b.id row hrow, honChain]

theorem Site.Sound.begin {b : Api.Workflow.Booking} {wallet : Address} {code : String}
    {action : BookingAction} {stage : Stage} (hb : Answered S x.system b)
    (hoffered : action ∈ availableActions b (some wallet))
    (hstage : action.begin sdk b wallet code = some stage) :
    stage.Sound x.system x.signed wallet b := by
  have honChain := h.onChain hb
  cases action with
  | issueChallenge =>
    cases hstage
    exact fun hcheck => by cases hcheck
  | checkIn =>
    simp only [BookingAction.begin] at hstage
    split at hstage
    · cases hstage
    · cases hstage
      exact fun hcheck => by cases hcheck
  | confirm =>
    obtain ⟨call, hcall, rfl⟩ := Option.map_eq_some_iff.mp hstage
    obtain ⟨n, hn, rfl⟩ := escrowCall_about honChain hcall
    have hcases := @offered_cases b wallet _ hoffered "" n "" _ rfl
    simp only [reduceCtorEq, false_and, true_and, false_or] at hcases
    exact ⟨⟨n, rfl, hn⟩, hcases.2, hcases.1⟩
  | cancel =>
    obtain ⟨call, hcall, rfl⟩ := Option.map_eq_some_iff.mp hstage
    obtain ⟨n, hn, rfl⟩ := escrowCall_about honChain hcall
    have hcases := @offered_cases b wallet _ hoffered "" n "" _ rfl
    simp only [reduceCtorEq, false_and, true_and, or_false] at hcases
    exact ⟨⟨n, rfl, hn⟩, hcases.2, hcases.1⟩

omit h in
/-- A run that the form begins is about the booking that the step stores. -/
theorem begun_of_step {s : State} {wallet : Address} {now : Int} {uuid : String}
    {body : CreateInput} (hstep : Joint.step S x.system (.api (.create wallet now uuid body)) = some s)
    {t : Task} (ht : beginBooking S sdk x.system.db wallet now uuid body = some t) :
    ∃ input b created funded, body.parse S.config.runtime = some input ∧
      Api.Workflow.create S.config.runtime S.config.network x.system.db now uuid input =
        .ok (s.db, b) ∧
      formCall S.config.runtime sdk body b.onChainBookingId = some created ∧
      escrowCall sdk .fundBooking wallet b.onChainBookingId = some funded ∧
      t = ⟨wallet, b, .signing created [funded] .fund⟩ := by
  simp only [Joint.beginBooking, Option.bind_eq_bind, Option.bind_eq_some_iff, Option.pure_def,
    Option.some.injEq, Prod.exists] at ht
  obtain ⟨input, hparse, db, b, hcreate, created, hcreated, funded, hfunded, rfl⟩ := ht
  have hok : Api.Workflow.create S.config.runtime S.config.network x.system.db now uuid input =
      .ok (db, b) := by
    cases hresult : Api.Workflow.create S.config.runtime S.config.network x.system.db now uuid input
    · rw [hresult] at hcreate
      cases hcreate
    · rw [hresult] at hcreate
      cases hcreate
      rfl
  -- the step stores what `create` returns
  have hdb : s.db = db := by
    simp only [Joint.step, State.truthful, if_true, Option.map_eq_some_iff] at hstep
    obtain ⟨server, hserver, rfl⟩ := hstep
    simp only [Api.step, hparse, Api.Server.drive, Api.Workflow.step, Option.map_eq_some_iff]
      at hserver
    obtain ⟨flow, hflow, rfl⟩ := hserver
    rw [Option.ite_none_left_eq_some, hok] at hflow
    cases hflow.2
    rfl
  exact ⟨input, b, created, funded, hparse, hdb ▸ hok, hcreated, hfunded, rfl⟩

omit h in
theorem Site.Sound.beginBooking {s : State} {wallet : Address} {now : Int} {uuid : String}
    {body : CreateInput} (hstep : Joint.step S x.system (.api (.create wallet now uuid body)) = some s)
    (hrenter : wallet = body.renter) (hs : ({ x with system := s } : Site).Sound S) {t : Task}
    (ht : beginBooking S sdk x.system.db wallet now uuid body = some t) :
    Answered S s t.booking ∧ t.stage.Sound s x.signed t.wallet t.booking := by
  obtain ⟨input, b, created, funded, hparse, hok, hcreated, hfunded, rfl⟩ := begun_of_step hstep ht
  obtain ⟨row, hrow, hload⟩ := Api.Workflow.stored_of_create hok
  have hid : row.id = uuid := hs.backed.paid.coherent.keyed uuid row hrow
  have hb : Answered S s b := by
    refine ⟨row, ?_, ?_⟩
    · rw [← hload]
      show s.db.bookings.lookup row.id = some row
      rw [hid, hrow]
    · show Api.BookingResponse.Later _ (Api.BookingController.serialize _ (Api.Workflow.load s.db row))
      rw [hload]
      exact Api.later_refl _
  have hby : wallet = b.renter := by
    obtain ⟨row', hrow'⟩ := Api.Workflow.created_of_create hok
    have hsame : row = row' := by
      rw [hrow'.bookings, hrow'.id, AList.lookup_insert] at hrow
      exact (Option.some.inj hrow).symm
    have hinput : input.renter = body.renter := by
      simp only [CreateInput.parse, Option.ite_none_right_eq_some, Option.some.injEq] at hparse
      obtain ⟨-, rfl⟩ := hparse
      rfl
    rw [hrenter, ← hinput, ← hrow'.renter, ← hsame, ← hload]
    rfl
  obtain ⟨-, -, honChain⟩ := create_answer hok
  obtain ⟨n, hn, rfl⟩ := escrowCall_about honChain hfunded
  exact ⟨hb, ⟨formCall_about honChain hcreated, n, rfl, hn⟩, hby⟩

/-- What `getTransaction` answered leads on to the next call, or to the report. -/
theorem Site.Sound.polled {t : Task} {call : Contract.Call} {rest : List Contract.Call}
    {report : Report} {hash : String} {left : Nat} {status : TransactionStatus} {stage : Stage}
    (hsound : (Stage.polling call rest report hash left).Sound x.system x.signed t.wallet t.booking)
    (hanswer : x.system.chain.answers hash status = true)
    (hstage : t.polled call rest report hash left status = some stage) :
    stage.Sound x.system x.signed t.wallet t.booking := by
  obtain ⟨hleads, hby, hsigned⟩ := hsound
  cases status with
  | success =>
    cases rest with
    | cons next rest =>
      cases hstage
      exact ⟨hleads.2, hby⟩
    | nil =>
      cases hstage
      obtain ⟨hhash, hshown⟩ := h.signed _ hsigned
      obtain ⟨r, hr, hmatch⟩ := List.any_eq_true.mp hanswer
      simp only [Bool.and_eq_true, decide_eq_true_eq] at hmatch
      obtain ⟨n, hname, hn⟩ := hleads
      exact fun _ => ⟨report, hash, rfl, hby, hhash,
        hn ▸ hshown r hr hmatch.1 hmatch.2 _ n hname⟩
  | failed => cases hstage
  | notFound =>
    simp only [Task.polled] at hstage
    split at hstage
    · cases hstage
    · cases hstage
      exact ⟨hleads, hby, hsigned⟩

end Pages

theorem sound_step {S : Setup} {sdk : Sdk} (x : Site) (act : SiteAction) (x' : Site)
    (h : x.Sound S) (hstep : x.step S sdk act = some x') : x'.Sound S := by
  rcases site_step_cases hstep with ⟨a, s, -, hadmits, hs, rfl⟩ | ⟨-, rfl⟩ |
    ⟨k, a, p, move, p', s, -, hp, hreact, hs, rfl⟩
  · exact h.moved hadmits hs
  · refine ⟨h.backed, h.labelled, h.recalled, h.signed, fun k p b hp hb => ?_, fun k p t hp ht => ?_⟩
    · rcases getElem?_of_concat hp with hp | ⟨-, rfl⟩
      · exact h.bookings k p b hp hb
      · cases hb
    · rcases getElem?_of_concat hp with hp | ⟨-, rfl⟩
      · exact h.tasks k p t hp ht
      · cases ht
  · have hreacts := reacts_of_react hreact
    -- first the system moves, then the page turns
    have hmoved : ({ x with system := s } : Site).Sound S := by
      cases move with
      | none =>
        cases hs
        exact h
      | some a =>
        obtain ⟨request, rfl⟩ := move_of_reacts hreacts
        exact h.moved (a := .api request) rfl hs
    have hbooking := fun b hb => hmoved.bookings k p b hp hb
    have hgrow : ∀ {wallet b} {stage : Stage} new, stage.Sound s x.signed wallet b →
        stage.Sound s (x.signed ++ new) wallet b :=
      fun new hstage => hstage.mono List.prefix_rfl (List.subset_append_left _ new)
    have htask := fun t ht => (hmoved.tasks k p t hp ht).imp_right (hgrow [])
    cases hreacts with
    | render wallet => exact hmoved.turned hp [] (by simp) hbooking htask
    | enter code => exact hmoved.turned hp [] (by simp) hbooking htask
    | load reference hnone =>
      cases hs
      refine hmoved.turned hp [] (by simp) (fun b hb => ?_) htask
      cases hget : Api.Workflow.get S.config.runtime x.system.db reference with
      | error e =>
        rw [hget] at hb
        cases hb
      | ok b' =>
        rw [hget] at hb
        cases hb
        obtain ⟨row, ⟨id, -, hrow⟩, rfl⟩ := Api.Workflow.get_eq_ok.mp hget
        have hid : row.id = id := h.backed.paid.coherent.keyed id row hrow
        exact ⟨row, by rw [← hrow, ← hid]; rfl, Api.later_refl _⟩
    | click action booking wallet hnone hb hwallet hoffered =>
      cases hs
      refine hmoved.turned hp [] (by simp) hbooking fun t ht => ?_
      obtain ⟨stage, hstage, rfl⟩ := Option.map_eq_some_iff.mp ht
      exact ⟨hbooking _ hb, hgrow [] (h.begin (hbooking _ hb) hoffered hstage)⟩
    | submit now uuid body wallet hnone hwallet hrenter =>
      refine hmoved.turned hp [] (by simp) hbooking fun t ht => ?_
      exact (Site.Sound.beginBooking hs hrenter hmoved ht).imp_right (hgrow [])
    | sent hash t call rest report ht hstage hhash hnew =>
      cases hs
      obtain ⟨hanswered, hsound⟩ := h.tasks k p t hp ht
      rw [hstage] at hsound
      rw [signs_sent ht hstage]
      refine hmoved.turned hp _ (fun e he => ?_) hbooking fun t' ht' => ?_
      · obtain rfl := List.mem_singleton.mp he
        exact ⟨hhash, fun r hr hsame => absurd hsame (hnew r hr)⟩
      · obtain rfl := Option.some.inj ht'
        exact ⟨hanswered, hsound.1, hsound.2, List.mem_append_right _ (List.mem_singleton_self _)⟩
    | polled status t call rest report hash left ht hstage hanswer =>
      cases hs
      obtain ⟨hanswered, hsound⟩ := h.tasks k p t hp ht
      rw [hstage] at hsound
      refine hmoved.turned hp [] (by simp) hbooking fun t' ht' => ?_
      obtain ⟨stage, hnext, rfl⟩ := Option.map_eq_some_iff.mp ht'
      exact ⟨hanswered, hgrow [] (h.polled hsound hanswer hnext)⟩
    | arrive t request ht hstage =>
      refine hmoved.turned hp [] (by simp) hbooking fun t' ht' => ?_
      obtain rfl := Option.some.inj ht'
      exact ⟨(hmoved.tasks k p t hp ht).1, trivial⟩
    | shown k token hsome => exact hmoved.turned hp [] (by simp) hbooking (by simp)
    | done k hsome => exact hmoved.turned hp [] (by simp) hbooking (by simp)
    | updated k process booking hsome hprocess hreturned =>
      cases hs
      refine hmoved.turned hp [] (by simp) (fun b hb => ?_) (by simp)
      obtain rfl := Option.some.inj hb
      obtain ⟨⟨row, hrow, hlater⟩, -⟩ := h.recalled.readings k process booking hprocess
        (by rw [hreturned]; rfl)
      have hid : row.id = process.op.id := h.backed.paid.coherent.keyed _ row hrow
      refine ⟨row, ?_, hlater⟩
      rw [← show row.id = booking.id from congrArg Api.BookingResponse.id hlater.terms, hid]
      exact hrow
    | failed hsome => exact hmoved.turned hp [] (by simp) hbooking (by simp)

theorem sound_of_exec {S : Setup} {sdk : Sdk} {x₀ x : Site} {as : List SiteAction}
    (h₀ : (siteMachine S sdk).init x₀) (hrun : (siteMachine S sdk).exec x₀ as = some x) :
    x.Sound S :=
  (siteMachine S sdk).exec_invariant sound_step hrun (sound_of_fresh h₀)

/-! ## Reports -/

/-- The status that a report finds its row in, and the one it asks for. -/
def Report.source : Report → BookingStatus
  | .fund => .pendingFunding
  | .cancel => .funded
  | .confirm => .checkedIn

def Report.target : Report → BookingStatus
  | .fund => .funded
  | .cancel => .refunded
  | .confirm => .completed

def Report.party (report : Report) (row : BookingRow) : Address :=
  match report with
  | .fund => row.renter
  | .cancel => row.renter
  | .confirm => row.host

/-- A report whose row is in its source state is served. -/
theorem Backed.serves_report {S : Setup} {s : State} (h : Backed S s) {id hash : String}
    {row : BookingRow} (hrow : s.db.bookings.lookup id = some row) (report : Report)
    (hhash : isTransactionHash hash = true)
    (hshown : Shown s.log report.event row.onChainBookingId hash)
    (hsource : row.status = report.source) (havailable : report ≠ .confirm → Available s id hash) :
    ∃ u, Reaches S s id row report.target u := by
  have hvalid := isHash_of_isTransactionHash hhash
  obtain ⟨hrenter, hhost⟩ := h.texts id row hrow
  cases report with
  | fund =>
    obtain ⟨u, hreach, -⟩ := h.reach_funded hrow hsource hshown (havailable (by decide))
    exact ⟨u, hreach⟩
  | cancel => exact h.reach_refunded hrow hsource hshown (havailable (by decide))
  | confirm => exact h.reach_completed hrow hsource hshown

/-- **What a page reports is true.** After any run of the site, if page `k` is about to report a
    transaction, then the request is that of the booking of a stored row, in the name of the
    party that the report is for; the log has the event that it will be verified against, for
    that row and under that hash; and the API can act on it, if the row is in the state that
    the report starts from and the hash is free. -/
theorem reports_are_evident (S : Setup) (sdk : Sdk) (x₀ x : Site)
    (as : List SiteAction) (h₀ : (siteMachine S sdk).init x₀)
    (hrun : (siteMachine S sdk).exec x₀ as = some x) (k : Nat) (p : Page) (t : Task)
    (request : Request) (hp : x.pages[k]? = some p) (ht : p.task = some t)
    (hstage : t.stage = .reporting request) (hreport : request.check?.isSome = true) :
    ∃ (report : Report) (hash : String) (row : BookingRow),
      request = report.request row.id t.wallet hash ∧
      x.system.db.bookings.lookup row.id = some row ∧ t.wallet = report.party row ∧
      Shown x.system.log report.event row.onChainBookingId hash ∧
      (row.status = report.source → (report ≠ .confirm → Available x.system row.id hash) →
        ∃ u, Reaches S x.system row.id row report.target u) := by
  have h := sound_of_exec h₀ hrun
  obtain ⟨hanswered, hsound⟩ := h.tasks k p t hp ht
  rw [hstage] at hsound
  obtain ⟨report, hash, rfl, hby, hhash, hshown⟩ := hsound hreport
  obtain ⟨row, hrow, hid, honChain, hrenter, hhost, -⟩ := hanswered.row
  rw [← hid] at hrow
  rw [← honChain] at hshown
  refine ⟨report, hash, row, by rw [hid], hrow, ?_, hshown,
    h.backed.serves_report hrow report hhash hshown⟩
  cases report with
  | fund => exact hby.trans hrenter.symm
  | cancel => exact hby.1.trans hrenter.symm
  | confirm => exact hby.1.trans hhost.symm

section Sample

/-- The renter books with the form: the booking is created and funded on chain, and the hash
    of the second transaction is on its way to the API. -/
def formRun : List SiteAction :=
  [.others setUpEscrow, .mount, .page 0 (.render (some "renter")),
   .page 0 (.submit 1892808000000 "3b241101-e2bb-4255-8caf-4136c566a962"
     ⟨"loft", "renter", "host", "1000000", "2030-01-01T10:00:00.000Z",
       "6c86c6aac5fb24bcf5d9939cb7d7d5645ce39418f449e03b262dd4fa14b4b92b"⟩),
   .page 0 (.sent "5a9392784e07eb40cfb3f4a464e0a91451f573eeb59d600983e190bd8aaddca6"),
   .others (callOf "5a9392784e07eb40cfb3f4a464e0a91451f573eeb59d600983e190bd8aaddca6" "renter"
     (.createBooking 4261549847195894357 "renter" "host" 1000000 1893492000)),
   .page 0 (.poll .notFound), .page 0 (.poll .success),
   .page 0 (.sent "2514e1475addffb378fdb07e9a1092176c09dbfbd129ebcaacd0099818d2534c"),
   .others fundOnChain, .page 0 (.poll .success)]

def sampleSite : Site := ⟨sampleStart, [], []⟩

theorem reports_are_evident_fund : ∃ (x : Site) (p : Page) (t : Task) (row : BookingRow),
    (siteMachine sampleSetup openSdk).exec sampleSite formRun = some x ∧
    x.pages[0]? = some p ∧ p.task = some t ∧
    Shown x.system.log "booking_funded" row.onChainBookingId
      "2514e1475addffb378fdb07e9a1092176c09dbfbd129ebcaacd0099818d2534c" := by
  obtain ⟨x, p, t, hrun, hp, ht, hstage⟩ : ∃ x p t,
      (siteMachine sampleSetup openSdk).exec sampleSite formRun = some x ∧
      x.pages[0]? = some p ∧ p.task = some t ∧
      t.stage = .reporting (.fund "3b241101-e2bb-4255-8caf-4136c566a962"
        "2514e1475addffb378fdb07e9a1092176c09dbfbd129ebcaacd0099818d2534c") :=
    ⟨_, _, _, rfl, rfl, rfl, rfl⟩
  obtain ⟨report, hash, row, hrequest, -, -, hshown, -⟩ := reports_are_evident sampleSetup
    openSdk sampleSite x formRun ⟨fresh_sampleStart, rfl, rfl⟩ hrun 0 p t _ hp ht hstage rfl
  cases report with
  | fund =>
    obtain ⟨-, rfl⟩ := Request.fund.inj hrequest
    exact ⟨x, p, t, row, hrun, hp, ht, hshown⟩
  | cancel => cases hrequest
  | confirm => cases hrequest

end Sample

end PovDeposit.Joint
