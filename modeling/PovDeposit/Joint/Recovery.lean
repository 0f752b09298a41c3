/-
  What the pages can do about a deposit that the API knows of.

  `deposit_stranded` has the deposits that are out of their reach, those whose funding was never
  reported. This is the other side. While a row is `FUNDED` or `CHECKED_IN` and its booking is
  funded on chain, pages that are opened now can get the deposit back to the renter and the row
  to its end, whatever else has been going on: a page is a run of its own, its requests wait for
  nobody, and the hash that it reports is new to the API.

  `offer_taken_up` is the run of one page that calls the escrow: it is opened and its button
  pressed (`opens`), the wallet signs (`call_goes_through`), and the API is told
  (`request_served`). A check-in takes two pages, that of the host with the code and that of the
  renter who enters it (`checks_in`).
-/
import PovDeposit.Joint.Unreported

namespace PovDeposit.Joint

open PovDeposit.Lib
open PovDeposit.Contract (Address Booking BookingState PaidBack)
open PovDeposit.Api (BookingRow BookingStatus Check Request)
open PovDeposit.Api.StellarConfig (trim)
open PovDeposit.Api.Workflow (Clear Completed)

/-! ## Steps of one page -/

/-- A step of a page, the transaction that a page has had signed, or the API at work on a
    request. -/
def Site.Acts (x : Site) : SiteAction → Prop
  | .others (.chain (.transaction hash _ _)) => ∃ e ∈ x.signed, e.1 = hash
  | .others (.chain _) => False
  | .others (.api a) => a.internal = true
  | .mount | .page _ _ => True

/-- The pages can bring the site from `x` to `y`, with nobody else at work. -/
abbrev PagesReach (S : Setup) (sdk : Sdk) (x y : Site) : Prop :=
  (siteMachine S sdk).CanReach Site.Acts x y

section Page

variable {S : Setup} {sdk : Sdk} {s s' : State} {pages : List Page} {p p' : Page}
  {signed : List (String × Address × Contract.Call)}

/-- The last page acts. -/
theorem page_acts (a : PageAction) {move : Option Action}
    (hreact : p.react S sdk s a = some (move, p'))
    (hmove : move.elim (some s) (Joint.step S s) = some s') :
    PagesReach S sdk ⟨s, pages ++ [p], signed⟩ ⟨s', pages ++ [p'], signed ++ p.signs a⟩ := by
  refine (siteMachine S sdk).canReach_step (a := .page pages.length a) ?_ trivial
  have hp : (pages ++ [p])[pages.length]? = some p := List.getElem?_concat_length
  have hset : (pages ++ [p]).set pages.length p' = pages ++ [p'] := by simp
  show (((pages ++ [p])[pages.length]?).bind _) = _
  rw [hp, Option.bind_some, hreact, Option.bind_some]
  dsimp only
  rw [hmove, Option.map_some, hset]

/-- It acts, and has nothing signed. -/
theorem page_turns (a : PageAction) {move : Option Action}
    (hreact : p.react S sdk s a = some (move, p'))
    (hmove : move.elim (some s) (Joint.step S s) = some s') (hsigns : p.signs a = []) :
    PagesReach S sdk ⟨s, pages ++ [p], signed⟩ ⟨s', pages ++ [p'], signed⟩ := by
  have h : PagesReach S sdk ⟨s, pages ++ [p], signed⟩
      ⟨s', pages ++ [p'], signed ++ p.signs a⟩ := page_acts a hreact hmove
  rw [hsigns, List.append_nil] at h
  exact h

/-- Steps of the API that a request has led to. -/
theorem api_acts {as : List Api.Action} (hrun : (machine S).exec s (as.map .api) = some s')
    (hinternal : ∀ a ∈ as, a.internal = true) :
    PagesReach S sdk ⟨s, pages, signed⟩ ⟨s', pages, signed⟩ := by
  induction as generalizing s with
  | nil =>
    obtain rfl := Option.some.inj hrun
    exact (siteMachine S sdk).canReach_refl _ _
  | cons a as ih =>
    obtain ⟨t, ht, hrest⟩ := ((machine S).exec_cons_eq_some).mp hrun
    have hstep : (siteMachine S sdk).step ⟨s, pages, signed⟩ (.others (.api a)) =
        some ⟨t, pages, signed⟩ := by
      have ht' : Joint.step S s (.api a) = some t := ht
      simp [siteMachine, Site.step, Site.admits, ht']
    have hacts : Site.Acts ⟨s, pages, signed⟩ (.others (.api a)) := hinternal a List.mem_cons_self
    exact ((siteMachine S sdk).canReach_step hstep hacts).trans
      (ih hrest fun a ha => hinternal a (List.mem_cons_of_mem _ ha))

/-- A page is opened on a booking. -/
theorem opens (wallet : Address) {id : String} {row : BookingRow}
    (hid : S.config.runtime.Canonical id) (hrow : s.db.bookings.lookup id = some row) :
    PagesReach S sdk ⟨s, pages, signed⟩
      ⟨s, pages ++ [⟨some wallet, some (Api.Workflow.load s.db row), "", none⟩], signed⟩ := by
  have hmount : PagesReach S sdk ⟨s, pages, signed⟩
      ⟨s, pages ++ [⟨none, none, "", none⟩], signed⟩ :=
    (siteMachine S sdk).canReach_step (a := .mount) rfl trivial
  have hget : Api.Workflow.get S.config.runtime s.db id = .ok (Api.Workflow.load s.db row) :=
    Api.Workflow.get_eq_ok.mpr ⟨row, (Api.names_iff hid).mpr hrow, rfl⟩
  have hload : Page.react S sdk s ⟨some wallet, none, "", none⟩ (.load id) =
      some (none, ⟨some wallet, some (Api.Workflow.load s.db row), "", none⟩) := by
    simp [Page.react, hget, Except.toOption]
  exact hmount.trans
    ((page_turns (.render (some wallet)) rfl rfl rfl).trans (page_turns _ hload rfl rfl))

end Page

/-! ## The run of an offer -/

section Run

variable {S : Setup} {sdk : Sdk} {s : State} {pages : List Page}
  {signed : List (String × Address × Contract.Call)} {shown : Option Address}
  {loaded : Option Api.Workflow.Booking} {code : String} {wallet : Address}
  {booking : Api.Workflow.Booking}

/-- The wallet signs the call, the transaction succeeds, and the page hears of it. -/
theorem call_goes_through {report : Report} {x : EscrowAction} {hash : String}
    {acc : Address → Address → Address → Int → Bool} {σ : Contract.Escrow}
    (hhash : isTransactionHash hash = true) (hnew : ∀ t ∈ s.chain.transactions, t.hash ≠ hash)
    (hunsigned : ∀ e ∈ signed, e.1 ≠ hash) (hself : wallet ≠ S.deployment.contract)
    (hσ : Contract.invoke (s.chain.ledger.env S.deployment hash [wallet] acc)
      s.chain.ledger.escrow x.call = .ok σ) :
    PagesReach S sdk
      ⟨s, pages ++ [⟨shown, loaded, code, some ⟨wallet, booking, .signing x.call [] report⟩⟩],
        signed⟩
      ⟨{ s with chain := s.chain.signed wallet hash x.call σ },
        pages ++ [⟨shown, loaded, code,
          some ⟨wallet, booking, .reporting (report.request booking.id wallet hash)⟩⟩],
        signed ++ [(hash, wallet, x.call)]⟩ := by
  have hsent : Page.react S sdk s
      ⟨shown, loaded, code, some ⟨wallet, booking, .signing x.call [] report⟩⟩ (.sent hash) =
      some (none, ⟨shown, loaded, code,
        some ⟨wallet, booking, .polling x.call [] report hash 30⟩⟩) := by
    have hfresh : s.chain.transactions.any (fun t => t.hash = hash) = false := by simpa using hnew
    simp [Page.react, hhash, hfresh]
  have hadmits : Site.admits S ⟨s, pages ++ [⟨shown, loaded, code,
      some ⟨wallet, booking, .polling x.call [] report hash 30⟩⟩],
      signed ++ [(hash, wallet, x.call)]⟩ (.chain (x.submit wallet hash acc)) = true := by
    simp only [Site.admits, EscrowAction.submit, List.all_append, List.all_cons, List.all_nil,
      Bool.and_true, Bool.and_eq_true, List.all_eq_true, Bool.or_eq_true, decide_eq_true_eq]
    refine ⟨fun e he => .inl (hunsigned e he), .inr ?_⟩
    simp [State.carries, hσ, Except.isOk, Except.toBool]
  have happlied : (siteMachine S sdk).step ⟨s, pages ++ [⟨shown, loaded, code,
      some ⟨wallet, booking, .polling x.call [] report hash 30⟩⟩],
      signed ++ [(hash, wallet, x.call)]⟩ (.others (.chain (x.submit wallet hash acc))) =
      some ⟨{ s with chain := s.chain.signed wallet hash x.call σ }, pages ++ [⟨shown, loaded, code,
        some ⟨wallet, booking, .polling x.call [] report hash 30⟩⟩],
        signed ++ [(hash, wallet, x.call)]⟩ := by
    have hchain := (chainStep_submit hhash hnew hσ).mpr ⟨hself, rfl⟩
    show (if _ then _ else none) = _
    rw [if_pos hadmits]
    simp [Joint.step, hchain]
  have hpolled : Page.react S sdk { s with chain := s.chain.signed wallet hash x.call σ }
      ⟨shown, loaded, code, some ⟨wallet, booking, .polling x.call [] report hash 30⟩⟩
      (.poll .success) = some (none, ⟨shown, loaded, code,
        some ⟨wallet, booking, .reporting (report.request booking.id wallet hash)⟩⟩) := by
    have hanswers : (s.chain.signed wallet hash x.call σ).answers hash .success = true := by
      simp [Chain.answers, Chain.signed, Chain.record]
    simp [Page.react, hanswers, Task.polled]
  exact (page_acts (.sent hash) hsent rfl).trans
    (((siteMachine S sdk).canReach_step happlied
      ⟨_, List.mem_append_right _ (List.mem_singleton_self _), rfl⟩).trans
      (page_turns _ hpolled rfl rfl))

/-- The request of a page arrives, and what the API does about it runs its course. -/
theorem request_handled {x : Site} {request : Request} {as : List Api.Action}
    {server : Api.Server}
    (hreach : PagesReach S sdk x
      ⟨s, pages ++ [⟨shown, loaded, code, some ⟨wallet, booking, .reporting request⟩⟩], signed⟩)
    (hvalid : request.valid = true)
    (hrun : (Api.machine S.config).exec
      { s.server with exchanges := s.server.exchanges ++ [⟨wallet, request, .received⟩] } as =
      some server)
    (htrue : (Api.machine S.config).Along
      (fun t a => State.truthful { s with server := t } a = true)
      { s.server with exchanges := s.server.exchanges ++ [⟨wallet, request, .received⟩] } as)
    (hinternal : ∀ a ∈ as, a.internal = true) :
    PagesReach S sdk x ⟨{ s with server := server }, pages ++ [⟨shown, loaded, code,
      some ⟨wallet, booking, .waiting request s.server.exchanges.length⟩⟩], signed⟩ := by
  have hsent : Page.react S sdk s
      ⟨shown, loaded, code, some ⟨wallet, booking, .reporting request⟩⟩ .arrive =
      some (some (.api (.receive wallet request)), ⟨shown, loaded, code,
        some ⟨wallet, booking, .waiting request s.server.exchanges.length⟩⟩) := rfl
  have harrive : Joint.step S s (.api (.receive wallet request)) = some { s with
      server := { s.server with
        exchanges := s.server.exchanges ++ [⟨wallet, request, .received⟩] } } := by
    simp [Joint.step, State.truthful, Api.step_receive S.config wallet hvalid]
  have hserved := api_exec (s := { s with
    server := { s.server with
      exchanges := s.server.exchanges ++ [⟨wallet, request, .received⟩] } }) hrun htrue
  exact (hreach.trans (page_turns .arrive hsent harrive rfl)).trans (api_acts hserved hinternal)

/-- A page hears what became of the call that its request has led to. -/
theorem answered_of_returned {p : Page} {request : Request} {call : Api.Workflow.Call}
    (hcalls : Request.calls request call = true) {i k : Nat} {b : Api.Workflow.Booking}
    (hexchange : s.server.exchange? i = some ⟨wallet, request, .forwarded⟩)
    (hcall : s.server.flow.call? k = some ⟨call, .returned b, true⟩) :
    ∃ loaded, p.answered s request i k = some { p with booking := loaded, task := none } := by
  cases request with
  | fund id hash => exact ⟨p.booking, by simp [Page.answered, hexchange, hcall, hcalls]⟩
  | cancel id actor hash => exact ⟨some b, by simp [Page.answered, hexchange, hcall, hcalls]⟩
  | checkIn id actor token => exact ⟨some b, by simp [Page.answered, hexchange, hcall, hcalls]⟩
  | confirm id actor hash => exact ⟨some b, by simp [Page.answered, hexchange, hcall, hcalls]⟩
  | checkInChallenge => cases hcalls

/-- The call of a request has returned, and the page has the answer. -/
theorem request_answered {x : Site} {request : Request} {call : Api.Workflow.Call}
    {row : BookingRow} {flow : Api.Workflow.State} {server : Api.Server} {i : Nat}
    (hreach : PagesReach S sdk x ⟨{ s with server := server }, pages ++ [⟨shown, loaded, code,
      some ⟨wallet, booking, .waiting request i⟩⟩], signed⟩)
    (hcalls : Request.calls request call = true) (hdone : Completed flow call row server.flow)
    (hexchange : server.exchange? i = some ⟨wallet, request, .forwarded⟩) :
    ∃ loaded', PagesReach S sdk x
      ⟨{ s with server := server }, pages ++ [⟨shown, loaded', code, none⟩], signed⟩ := by
  obtain ⟨b, hreturned⟩ := hdone.calls
  have hcall : server.flow.call? flow.calls.length = some ⟨call, .returned b, true⟩ := by
    rw [Api.Workflow.State.call?, hreturned]
    exact List.getElem?_concat_length
  obtain ⟨loaded', hanswered⟩ := answered_of_returned (s := { s with server := server })
    (p := ⟨shown, loaded, code, some ⟨wallet, booking, .waiting request i⟩⟩) hcalls hexchange hcall
  have hanswer : Page.react S sdk { s with server := server } ⟨shown, loaded, code,
      some ⟨wallet, booking, .waiting request i⟩⟩ (.answer flow.calls.length) =
      some (none, ⟨shown, loaded', code, none⟩) := by
    simp [Page.react, hanswered]
  exact ⟨loaded', hreach.trans (page_turns _ hanswer rfl rfl)⟩

theorem calls_of_check {request : Request} {check : Check}
    (hcheck : request.check? = some check) (v : Api.Workflow.Verification) :
    Request.calls request (check.call v) = true := by
  cases request <;> cases hcheck <;> simp [Request.calls]

/-- A request with a transaction is served to its end. -/
theorem request_served {x : Site} {request : Request} {check : Check} {row : BookingRow}
    {transaction : Api.TransactionAnswer} {events : List Api.EventInfo}
    {v : Api.Workflow.Verification}
    (hreach : PagesReach S sdk x
      ⟨s, pages ++ [⟨shown, loaded, code, some ⟨wallet, booking, .reporting request⟩⟩], signed⟩)
    (hvalid : request.valid = true) (hcheck : request.check? = some check)
    (hid : S.config.runtime.Canonical request.id) (hrow : s.db.bookings.lookup request.id = some row)
    (htrue : truthful s.chain check.transactionHash transaction events = true)
    (hv : Api.verifyEvent S.config.contractId transaction events check.transactionHash
      row.onChainBookingId check.expectedEvent = .ok v)
    (hclear : Clear s.server.flow (check.call v) row) :
    ∃ server loaded', Completed s.server.flow (check.call v) row server.flow ∧
      PagesReach S sdk x
        ⟨{ s with server := server }, pages ++ [⟨shown, loaded', code, none⟩], signed⟩ := by
  obtain ⟨n, server, hrun, hdone, hexchanges⟩ :=
    Api.serve_arrived S.config wallet hcheck hid hrow hv hclear
  have htruthful := (along_settling (S := S) wallet hcheck htrue s.server.flow.calls.length n).2 _
    (Api.step_receive S.config wallet hvalid)
  have hhandled := request_handled hreach hvalid hrun htruthful fun a ha => by
    simp only [List.mem_append, List.mem_cons, List.mem_replicate, List.not_mem_nil, or_false] at ha
    rcases ha with (rfl | rfl | rfl) | ⟨-, rfl⟩ <;> rfl
  have hexchange : server.exchange? s.server.exchanges.length =
      some ⟨wallet, request, .forwarded⟩ := by
    rw [Api.Server.exchange?, hexchanges]
    exact List.getElem?_concat_length
  obtain ⟨loaded', hanswered⟩ :=
    request_answered hhandled (calls_of_check hcheck v) hdone hexchange
  exact ⟨server, loaded', hdone, hanswered⟩

end Run

/-! ## What a page offers -/

section Offers

variable {S : Setup} {sdk : Sdk} {s : State} (h : Backed S s) {id : String}
  {row : BookingRow} (hrow : s.db.bookings.lookup id = some row) {n : UInt64}
  (hid : idText n = row.onChainBookingId) {b : Booking}
  (hb : s.chain.ledger.escrow.booking? n = some b) (hfunded : b.state = .funded)
  (hstatus : row.status = .funded ∨ row.status = .checkedIn) {wallet : Address} {hash : String}
  (hhash : isTransactionHash hash = true) (hnew : ∀ t ∈ s.chain.transactions, t.hash ≠ hash)
  {acc : Address → Address → Address → Int → Bool} {action : BookingAction} {x : EscrowAction}
  {check : Check} {event : Contract.ContractEvent}
  (hx : Settles S s id row n b wallet hash acc action x check event)
include h hrow hid hb hfunded hstatus hhash hnew hx

/-- A page that has begun on an offer brings it to its end. -/
theorem offer_carried_out {pages : List Page} {signed : List (String × Address × Contract.Call)}
    (hunsigned : ∀ e ∈ signed, e.1 ≠ hash) (hself : wallet ≠ S.deployment.contract)
    {σ : Contract.Escrow}
    (hσ : Contract.invoke (s.chain.ledger.env S.deployment hash [wallet] acc)
      s.chain.ledger.escrow x.call = .ok σ) {report : Report}
    (hreport : report.request id wallet hash = x.request) {shown : Option Address}
    {loaded : Option Api.Workflow.Booking} {code : String} :
    ∃ y v, y.system.chain = s.chain.signed wallet hash x.call σ ∧
      y.system.db.bookings.lookup id = some ((check.call v).op.apply row) ∧
      PagesReach S sdk
        ⟨s, pages ++ [⟨shown, loaded, code,
          some ⟨wallet, Api.Workflow.load s.db row, .signing x.call [] report⟩⟩], signed⟩ y := by
  let s₁ : State := { s with chain := s.chain.signed wallet hash x.call σ }
  have hstep : Joint.step S s (.chain (x.submit wallet hash acc)) = some s₁ := by
    simp [Joint.step, (chainStep_submit hhash hnew hσ).mpr ⟨hself, rfl⟩, s₁]
  have h₁ : Backed S s₁ := backed_step _ _ _ h hstep
  have hshown : Shown s₁.log check.expectedEvent row.onChainBookingId check.transactionHash := by
    obtain ⟨-, -, hevents⟩ := hx.committed σ hσ
    refine ⟨⟨hash, s.chain.ledger.sequence, event⟩, ?_, hx.name, ?_, hx.transaction.symm⟩
    · show _ ∈ σ.events
      rw [hevents]
      exact List.mem_append_right _ (List.mem_singleton_self _)
    · rw [hx.booking, hid]
  obtain ⟨-, r, -, -, -, htrue, hv⟩ := verified_of_shown h₁.logged S.configured hshown
  have hclear := clear_of_settles h hrow hid hb hfunded hstatus hhash hnew hx
    ⟨r.ledger, r.createdAt.toNat * 1000⟩
  have hown : report.request (Api.Workflow.load s.db row).id wallet hash = x.request := by
    rw [show (Api.Workflow.load s.db row).id = id from h.paid.coherent.keyed id row hrow, hreport]
  have hsigned : PagesReach S sdk ⟨s, pages ++ [⟨shown, loaded, code,
      some ⟨wallet, Api.Workflow.load s.db row, .signing x.call [] report⟩⟩], signed⟩
      ⟨s₁, pages ++ [⟨shown, loaded, code,
        some ⟨wallet, Api.Workflow.load s.db row, .reporting x.request⟩⟩],
        signed ++ [(hash, wallet, x.call)]⟩ := by
    rw [← hown]
    exact call_goes_through hhash hnew hunsigned hself hσ
  obtain ⟨server, loaded', hdone, hserved⟩ :=
    request_served hsigned hx.valid hx.request (hx.id.symm ▸ h.spelled id row hrow)
      (hx.id.symm ▸ hrow) htrue hv hclear
  refine ⟨_, ⟨r.ledger, r.createdAt.toNat * 1000⟩, rfl, ?_, hserved⟩
  show server.flow.db.bookings.lookup id = _
  rw [hdone.bookings, (call_of_check hx.request _).1.trans hx.id, lookup_insert, if_pos rfl]

/-- A page is opened, its button pressed, and what it offers comes about. -/
theorem offer_taken_up {pages : List Page} {signed : List (String × Address × Contract.Call)}
    (hunsigned : ∀ e ∈ signed, e.1 ≠ hash) (hself : wallet ≠ S.deployment.contract)
    {σ : Contract.Escrow}
    (hσ : Contract.invoke (s.chain.ledger.env S.deployment hash [wallet] acc)
      s.chain.ledger.escrow x.call = .ok σ)
    (hoffered : action ∈ availableActions (Api.Workflow.load s.db row) (some wallet))
    {report : Report} (hreport : report.request id wallet hash = x.request)
    (hbegin : action.begin sdk (Api.Workflow.load s.db row) wallet "" =
      some (.signing x.call [] report)) :
    ∃ y row', PagesReach S sdk ⟨s, pages, signed⟩ y ∧
      y.system.chain = s.chain.signed wallet hash x.call σ ∧
      y.system.db.bookings.lookup id = some row' ∧ row.SameTerms row' ∧ row'.status = x.target := by
  obtain ⟨y, v, hchain, hstored, hreach⟩ :=
    offer_carried_out h hrow hid hb hfunded hstatus hhash hnew hx hunsigned hself hσ hreport
  have hclick : Page.react S sdk s
      ⟨some wallet, some (Api.Workflow.load s.db row), "", none⟩ (.click action) =
      some (none, ⟨some wallet, some (Api.Workflow.load s.db row), "",
        some ⟨wallet, Api.Workflow.load s.db row, .signing x.call [] report⟩⟩) := by
    simp only [Page.react, if_pos hoffered, hbegin, Option.map_some]
  have hopened : PagesReach S sdk ⟨s, pages, signed⟩ ⟨s, pages ++ [⟨some wallet,
      some (Api.Workflow.load s.db row), "", none⟩], signed⟩ :=
    opens wallet (h.spelled id row hrow) hrow
  exact ⟨y, _, (hopened.trans (page_turns _ hclick rfl rfl)).trans hreach, hchain, hstored,
    Api.Workflow.sameTerms_apply _ row, hx.target v⟩

end Offers

/-! ## The check-in -/

/-- The state after the host was given a code. -/
def State.issued (S : Setup) (s : State) (id nonce : String) (now : Int) (row : BookingRow) :
    State :=
  { s with server := ⟨{ s.server.flow with db := { s.db with
      challenges := s.db.challenges.insert (Api.CheckIn.hashNonce S.config.runtime nonce)
        ⟨id, Api.CheckIn.hashNonce S.config.runtime nonce, now + 2 * 60000, none⟩ } },
    s.server.exchanges ++ [⟨row.host, .checkInChallenge id row.host, .answered
      (Api.CheckIn.token S.config.runtime (Api.CheckIn.newPayload id row.renter nonce now))⟩],
    s.server.auth⟩ }

section Presence

variable {S : Setup} {sdk : Sdk} {s : State} (h : Backed S s) {id : String}
  {row : BookingRow} (hrow : s.db.bookings.lookup id = some row)
  (hparties : row.renter ≠ row.host) (hstatus : row.status = .funded) {nonce : String} {now : Int}
  {pages : List Page} {signed : List (String × Address × Contract.Call)}
include h hrow hparties hstatus

/-- The host has a page show a code. -/
theorem code_shown
    (hnew : s.db.challenges.lookup (Api.CheckIn.hashNonce S.config.runtime nonce) = none) :
    ∃ p, PagesReach S sdk ⟨s, pages, signed⟩
      ⟨s.issued S id nonce now row, pages ++ [p], signed⟩ := by
  obtain ⟨-, hhost⟩ := h.texts id row hrow
  have hown : (Api.Workflow.load s.db row).id = id := h.paid.coherent.keyed id row hrow
  have hoffered : BookingAction.issueChallenge ∈
      availableActions (Api.Workflow.load s.db row) (some row.host) := by
    have hstate : (Api.Workflow.load s.db row).state = .funded := hstatus
    have hrenter : (Api.Workflow.load s.db row).renter = row.renter := rfl
    have hhost' : (Api.Workflow.load s.db row).host = row.host := rfl
    simp [availableActions, Api.ne_empty_of_isText hhost, hstate, hrenter, hhost', hparties.symm]
  have hclick : Page.react S sdk s
      ⟨some row.host, some (Api.Workflow.load s.db row), "", none⟩ (.click .issueChallenge) =
      some (none, ⟨some row.host, some (Api.Workflow.load s.db row), "", some ⟨row.host,
        Api.Workflow.load s.db row, .reporting (.checkInChallenge id row.host)⟩⟩) := by
    simp only [Page.react, if_pos hoffered, BookingAction.begin, hown, Option.map_some]
  have hopened : PagesReach S sdk ⟨s, pages, signed⟩ ⟨s, pages ++
      [⟨some row.host, some (Api.Workflow.load s.db row), "", none⟩], signed⟩ :=
    opens row.host (h.spelled id row hrow) hrow
  have hhandled := request_handled (hopened.trans (page_turns _ hclick rfl rfl))
    (by simpa [Request.valid] using hhost)
    (Api.serve_challenge_arrived S.config row.host now (h.spelled id row hrow) hrow hnew)
    (along_truthful _ (by simp)) (by simp [Api.Action.internal])
  have hexchange : (s.issued S id nonce now row).server.exchange? s.server.exchanges.length =
      some ⟨row.host, .checkInChallenge id row.host, .answered (Api.CheckIn.token S.config.runtime
        (Api.CheckIn.newPayload id row.renter nonce now))⟩ := List.getElem?_concat_length
  have hanswer : Page.react S sdk (s.issued S id nonce now row)
      ⟨some row.host, some (Api.Workflow.load s.db row), "", some ⟨row.host,
        Api.Workflow.load s.db row, .waiting (.checkInChallenge id row.host)
          s.server.exchanges.length⟩⟩ (.answer 0) =
      some (none, ⟨some row.host, some (Api.Workflow.load s.db row),
        Api.CheckIn.token S.config.runtime (Api.CheckIn.newPayload id row.renter nonce now),
        none⟩) := by
    simp [Page.react, Page.answered, hexchange]
  exact ⟨_, hhandled.trans (page_turns _ hanswer rfl rfl)⟩

/-- The host has a page show a code, and the renter enters it on another. -/
theorem checks_in (hunlocked : s.server.flow.rowLocked id = false)
    (hfresh : FreshNonce S s id row.renter nonce now)
    (htrim : trim (Api.CheckIn.token S.config.runtime
      (Api.CheckIn.newPayload id row.renter nonce now)) =
      Api.CheckIn.token S.config.runtime (Api.CheckIn.newPayload id row.renter nonce now)) :
    ∃ y row', PagesReach S sdk ⟨s, pages, signed⟩ y ∧ y.system.chain = s.chain ∧
      y.signed = signed ∧ y.system.db.bookings.lookup id = some row' ∧ row.SameTerms row' ∧
      row'.status = .checkedIn := by
  obtain ⟨hcarries, hnew⟩ := hfresh
  obtain ⟨hrenter, -⟩ := h.texts id row hrow
  obtain ⟨p, hshown⟩ : ∃ p, PagesReach S sdk ⟨s, pages, signed⟩
      ⟨s.issued S id nonce now row, pages ++ [p], signed⟩ :=
    code_shown h hrow hparties hstatus hnew
  let s₁ := s.issued S id nonce now row
  let token := Api.CheckIn.token S.config.runtime (Api.CheckIn.newPayload id row.renter nonce now)
  have hrow₁ : s₁.db.bookings.lookup id = some row := hrow
  have hown : (Api.Workflow.load s₁.db row).id = id := h.paid.coherent.keyed id row hrow
  have hoffered : BookingAction.checkIn ∈
      availableActions (Api.Workflow.load s₁.db row) (some row.renter) := by
    have hstate : (Api.Workflow.load s₁.db row).state = .funded := hstatus
    have hmine : (Api.Workflow.load s₁.db row).renter = row.renter := rfl
    simp [availableActions, Api.ne_empty_of_isText hrenter, hstate, hmine]
  have hclick : Page.react S sdk s₁
      ⟨some row.renter, some (Api.Workflow.load s₁.db row), token, none⟩ (.click .checkIn) =
      some (none, ⟨some row.renter, some (Api.Workflow.load s₁.db row), token, some ⟨row.renter,
        Api.Workflow.load s₁.db row, .reporting (.checkIn id row.renter token)⟩⟩) := by
    have hne : token ≠ "" := Api.ne_empty_of_isText hcarries.length
    have hbegin : BookingAction.checkIn.begin sdk (Api.Workflow.load s₁.db row) row.renter
        token = some (.reporting (.checkIn id row.renter token)) := by
      have htoken : trim token = token := htrim
      simp only [BookingAction.begin, htoken, if_neg hne, hown]
    simp only [Page.react, if_pos hoffered, hbegin, Option.map_some]
  have hclear : Clear s₁.server.flow
      (.checkIn id row.renter (S.config.runtime.sha256 nonce)) row :=
    clear_checkIn hrow₁ hstatus hunlocked hcarries
  obtain ⟨n, server, challenges, hrun, hdone, hexchanges⟩ :=
    Api.serve_token_arrived S.config row.renter (h.spelled id row hrow) hcarries (s := s₁.server)
      (AList.lookup_insert _) rfl rfl (by show now < now + 2 * 60000; omega) hclear
  have hentered : PagesReach S sdk ⟨s₁, pages ++ [p], signed⟩ ⟨s₁, pages ++ [p] ++
      [⟨some row.renter, some (Api.Workflow.load s₁.db row), token, none⟩], signed⟩ :=
    (opens row.renter (h.spelled id row hrow) hrow₁).trans (page_turns (.enter token) rfl rfl rfl)
  have hhandled := request_handled (hshown.trans (hentered.trans (page_turns _ hclick rfl rfl)))
    (by simpa [Request.valid] using ⟨hrenter, hcarries.length⟩) hrun
    (along_truthful _ fun a ha => by
      simp only [List.mem_append, List.mem_cons, List.mem_replicate, List.not_mem_nil,
        or_false] at ha
      rcases ha with (rfl | rfl) | rfl | ⟨-, rfl⟩ <;> simp)
    fun a ha => by
      simp only [List.mem_append, List.mem_cons, List.mem_replicate, List.not_mem_nil,
        or_false] at ha
      rcases ha with (rfl | rfl) | rfl | ⟨-, rfl⟩ <;> rfl
  have hexchange : server.exchange? s₁.server.exchanges.length =
      some ⟨row.renter, .checkIn id row.renter token, .forwarded⟩ := by
    rw [Api.Server.exchange?, hexchanges]
    exact List.getElem?_concat_length
  obtain ⟨loaded', hanswered⟩ :=
    request_answered hhandled (by simp [Request.calls]) hdone hexchange
  refine ⟨_, (Api.Workflow.checkIn id row.renter (S.config.runtime.sha256 nonce)).apply row,
    hanswered, rfl, rfl, ?_, Api.Workflow.sameTerms_apply _ row, rfl⟩
  show server.flow.db.bookings.lookup id = _
  rw [hdone.bookings]
  exact AList.lookup_insert _

end Presence

/-! ## The parties of a row -/

/-- No row has one account on both sides. -/
def Parted (s : State) : Prop :=
  ∀ id row, s.db.bookings.lookup id = some row → row.renter ≠ row.host

theorem parted_step {S : Setup} {s s' : State} {a : Action} (h : Backed S s) (hparted : Parted s)
    (hstep : Joint.step S s a = some s') : Parted s' := by
  cases a with
  | chain a =>
    obtain ⟨chain, -, rfl⟩ := Option.map_eq_some_iff.mp hstep
    exact hparted
  | api a =>
    simp only [Joint.step, Option.ite_none_right_eq_some, Option.map_eq_some_iff] at hstep
    obtain ⟨-, server, hserver, rfl⟩ := hstep
    intro id row' hrow'
    rcases Api.row_of_step h.paid.coherent hserver hrow' with ⟨row, hrow, hterms⟩ |
      ⟨_, _, uuid, _, _, -, -, -, hcreated⟩
    · rw [hterms.renter, hterms.host]
      exact hparted id row hrow
    · rw [hcreated.renter, hcreated.host]
      exact hcreated.parties

theorem parted_of_exec {S : Setup} {sdk : Sdk} {x₀ x : Site}
    {as : List SiteAction} (h₀ : (siteMachine S sdk).init x₀)
    (hrun : (siteMachine S sdk).exec x₀ as = some x) : x.Sound S ∧ Parted x.system := by
  refine (siteMachine S sdk).exec_invariant (I := fun z => z.Sound S ∧ Parted z.system)
    (fun z act z' hz hstep => ⟨sound_step z act z' hz.1 hstep, ?_⟩) hrun
    ⟨sound_of_fresh h₀, fun id row hrow => ?_⟩
  · rcases site_step_cases hstep with ⟨a, s, -, -, hs, rfl⟩ | ⟨-, rfl⟩ |
      ⟨k, a, p, move, p', s, -, -, -, hs, rfl⟩
    · exact parted_step hz.1.backed hz.2 hs
    · exact hz.2
    · cases move with
      | none =>
        cases hs
        exact hz.2
      | some a => exact parted_step hz.1.backed hz.2 hs
  · rw [lookup_of_fresh h₀.1] at hrow
    cases hrow

/-! ## Getting a deposit back -/

/-- The deposit of booking `n`, which is `b`, is in the escrow and can leave it: its entries are
    not archived, the token takes the transfer, and the hash is a new one. -/
structure Recoverable (S : Setup) (x : Site) (n : UInt64) (b : Booking) (hash : String)
    (acc : Address → Address → Address → Int → Bool) : Prop where
  booking : x.system.chain.ledger.escrow.booking? n = some b
  funded : b.state = .funded
  live : Contract.Live x.system.chain.ledger.sequence x.system.chain.ledger.escrow n
  accepted : ∀ a, x.system.chain.ledger.escrow.asset = some a →
    acc a S.deployment.contract b.renter b.depositAmount = true
  wellFormed : isTransactionHash hash = true
  new : ∀ t ∈ x.system.chain.transactions, t.hash ≠ hash
  unsigned : ∀ e ∈ x.signed, e.1 ≠ hash

/-- The pages can pay the deposit back, and bring the row to this status. -/
def Recovers (S : Setup) (sdk : Sdk) (x : Site) (id : String) (row : BookingRow)
    (n : UInt64) (b : Booking) (state : BookingState) (status : BookingStatus) : Prop :=
  ∃ y row', PagesReach S sdk x y ∧
    PaidBack S.deployment.contract n b state x.system.chain.ledger.escrow
      y.system.chain.ledger.escrow ∧
    y.system.db.bookings.lookup id = some row' ∧ row.SameTerms row' ∧ row'.status = status

section Recovery

variable {S : Setup} {sdk : Sdk} {x : Site} (h : Backed S x.system) {id : String}
  {row : BookingRow} (hrow : x.system.db.bookings.lookup id = some row) {n : UInt64}
  (hid : idText n = row.onChainBookingId) {b : Booking} (hagree : agreesWithRow b row = true)
  {hash : String} {acc : Address → Address → Address → Int → Bool}
  (hrecoverable : Recoverable S x n b hash acc)
include h hrow hid hagree hrecoverable

theorem recovers_cancel (hstatus : row.status = .funded)
    (htime : x.system.chain.ledger.timestamp < b.visitTime)
    (hwallet : sdk.isAddress row.renter = true) (hself : row.renter ≠ S.deployment.contract) :
    Recovers S sdk x id row n b .refunded .refunded := by
  obtain ⟨hb, hfunded, hlive, haccepted, hhash, hnew, hunsigned⟩ := hrecoverable
  obtain ⟨hrenter, -, -⟩ := terms_of_agrees hagree
  obtain ⟨check, event, hx⟩ := settles_cancel h hrow hb hfunded hagree hhash acc hstatus
  obtain ⟨σ, hσ, -, hpaid⟩ := Contract.cancel_pays h.logged.chronicled.recorded.solvent hb hfunded
    hash [row.renter] acc hlive (by simpa using hself.symm) (by simp [hrenter]) haccepted htime
  rw [hrenter] at hσ
  have hoffered : BookingAction.cancel ∈
      availableActions (Api.Workflow.load x.system.db row) (some row.renter) := by
    have hstate : (Api.Workflow.load x.system.db row).state = .funded := hstatus
    have hmine : (Api.Workflow.load x.system.db row).renter = row.renter := rfl
    simp [availableActions, Api.ne_empty_of_isText (h.texts id row hrow).1, hstate, hmine]
  have hbegin : BookingAction.cancel.begin sdk (Api.Workflow.load x.system.db row)
      row.renter "" = some (.signing (.cancelBooking row.renter n) [] .cancel) := by
    show (escrowCall sdk .cancelBooking row.renter row.onChainBookingId).map _ = _
    rw [← hid, escrowCall_idText hwallet]
    rfl
  obtain ⟨y, row', hreach, hchain, hstored⟩ := offer_taken_up h hrow hid hb hfunded (.inl hstatus)
    hhash hnew hx hunsigned hself hσ hoffered rfl hbegin
  refine ⟨y, row', hreach, ?_, hstored⟩
  rw [hchain]
  exact hpaid

theorem recovers_confirm (hstatus : row.status = .checkedIn)
    (htime : b.visitTime ≤ x.system.chain.ledger.timestamp)
    (hwallet : sdk.isAddress row.host = true) (hself : row.host ≠ S.deployment.contract) :
    Recovers S sdk x id row n b .released .completed := by
  obtain ⟨hb, hfunded, hlive, haccepted, hhash, hnew, hunsigned⟩ := hrecoverable
  obtain ⟨-, hhost, -⟩ := terms_of_agrees hagree
  obtain ⟨check, event, hx⟩ := settles_confirm h hrow hb hfunded hagree hhash acc hstatus
  obtain ⟨σ, hσ, -, hpaid⟩ := Contract.confirm_pays h.logged.chronicled.recorded.solvent hb
    hfunded hash [row.host] acc hlive (by simpa using hself.symm) (by simp [hhost]) haccepted htime
  rw [hhost] at hσ
  have hoffered : BookingAction.confirm ∈
      availableActions (Api.Workflow.load x.system.db row) (some row.host) := by
    have hstate : (Api.Workflow.load x.system.db row).state = .checkedIn := hstatus
    have hmine : (Api.Workflow.load x.system.db row).host = row.host := rfl
    simp [availableActions, Api.ne_empty_of_isText (h.texts id row hrow).2, hstate, hmine]
  have hbegin : BookingAction.confirm.begin sdk (Api.Workflow.load x.system.db row)
      row.host "" = some (.signing (.confirmVisit row.host n) [] .confirm) := by
    show (escrowCall sdk .confirmVisit row.host row.onChainBookingId).map _ = _
    rw [← hid, escrowCall_idText hwallet]
    rfl
  obtain ⟨y, row', hreach, hchain, hstored⟩ := offer_taken_up h hrow hid hb hfunded (.inr hstatus)
    hhash hnew hx hunsigned hself hσ hoffered rfl hbegin
  refine ⟨y, row', hreach, ?_, hstored⟩
  rw [hchain]
  exact hpaid

end Recovery

/-- **The pages can get a deposit back.** In every site that was reached in any way, for a row
    and a booking on chain with the same terms whose deposit can leave the escrow, the pages can
    by themselves do all that is left to do, with nobody else at work. While the row is `FUNDED`
    and the visit lies ahead, they have the deposit refunded. From the visit time on they have
    it released: if the row is `CHECKED_IN`, or if it is `FUNDED` still and the host can issue a
    code. -/
theorem deposit_recovered (S : Setup) (sdk : Sdk) (x₀ x : Site)
    (as : List SiteAction) (h₀ : (siteMachine S sdk).init x₀)
    (hrun : (siteMachine S sdk).exec x₀ as = some x) (id : String) (row : BookingRow)
    (hrow : x.system.db.bookings.lookup id = some row) (n : UInt64)
    (hid : idText n = row.onChainBookingId) (b : Booking) (hagree : agreesWithRow b row = true)
    (hash : String) (acc : Address → Address → Address → Int → Bool)
    (hrecoverable : Recoverable S x n b hash acc) :
    (x.system.chain.ledger.timestamp < b.visitTime → row.status = .funded →
      sdk.isAddress row.renter = true → row.renter ≠ S.deployment.contract →
      Recovers S sdk x id row n b .refunded .refunded) ∧
    (b.visitTime ≤ x.system.chain.ledger.timestamp →
      sdk.isAddress row.host = true → row.host ≠ S.deployment.contract →
      (row.status = .checkedIn ∨ row.status = .funded ∧ ∃ nonce now,
        FreshNonce S x.system id row.renter nonce now ∧
        trim (Api.CheckIn.token S.config.runtime (Api.CheckIn.newPayload id row.renter nonce now)) =
          Api.CheckIn.token S.config.runtime (Api.CheckIn.newPayload id row.renter nonce now)) →
      Recovers S sdk x id row n b .released .completed) := by
  obtain ⟨hsound, hparted⟩ := parted_of_exec h₀ hrun
  have h := hsound.backed
  refine ⟨fun htime hstatus hwallet hself => ?_, fun htime hwallet hself hstatus => ?_⟩
  · exact recovers_cancel h hrow hid hagree hrecoverable hstatus htime hwallet hself
  rcases hstatus with hstatus | ⟨hstatus, nonce, now, hfresh, htrim⟩
  · exact recovers_confirm h hrow hid hagree hrecoverable hstatus htime hwallet hself
  · -- the check-in comes first, and leaves the chain as it is
    obtain ⟨hb, hfunded, hlive, haccepted, hhash, hnew, hunsigned⟩ := hrecoverable
    obtain ⟨y, row', hreach, hchain, hsigned, hrow', hterms, hstatus'⟩ :
        ∃ y row', PagesReach S sdk x y ∧ y.system.chain = x.system.chain ∧
          y.signed = x.signed ∧ y.system.db.bookings.lookup id = some row' ∧
          row.SameTerms row' ∧ row'.status = .checkedIn :=
      checks_in h hrow (hparted id row hrow) hstatus
        (h.unlocked_of_funded hrow hid hb hfunded (.inl hstatus)) hfresh htrim
    obtain ⟨bs, hbs⟩ := hreach.exec
    have h' := (parted_of_exec h₀ ((siteMachine S sdk).exec_trans hrun hbs)).1.backed
    have hrecoverable' : Recoverable S y n b hash acc := by
      rw [← hchain] at hb hlive haccepted hnew
      exact ⟨hb, hfunded, hlive, haccepted, hhash, hnew, hsigned ▸ hunsigned⟩
    have hagree' := (agreesWithRow_of_sameTerms hterms).trans hagree
    obtain ⟨z, row'', hreach', hpaid, hrow'', hterms', hstatus''⟩ :=
      recovers_confirm h' hrow' (hid.trans hterms.onChainBookingId.symm) hagree' hrecoverable'
        hstatus' (hchain ▸ htime) (hterms.host.symm ▸ hwallet) (hterms.host.symm ▸ hself)
    exact ⟨z, row'', hreach.trans hreach', hchain ▸ hpaid, hrow'', hterms.trans hterms',
      hstatus''⟩

/-! ## A sample -/

section Sample

open Api.Workflow (sampleRuntime samplePayload)

/-- The payload of a code that is issued a minute after the visit time. -/
def visitPayload : Api.CheckInPayload := { samplePayload with expiresAt := some 1893492180000 }

/-- Its JSON text in base64url. -/
def visitEncoded : String :=
  "eyJ2ZXJzaW9uIjoxLCJib29raW5nSWQiOiIzYjI0MTEwMS1lMmJiLTQyNTUtOGNhZi00" ++
    "MTM2YzU2NmE5NjIiLCJyZW50ZXIiOiJyZW50ZXIiLCJub25jZSI6IjAwMDEwMjAzMDQwNTA2MDcwODA5MGEw" ++
    "YjBjMGQwZTBmMTAxMTEyMTMxNDE1MTYxNzE4MTkxYTFiMWMxZDFlMWYiLCJleHBpcmVzQXQiOiIyMDMwLTAx" ++
    "LTAxVDEwOjAzOjAwLjAwMFoifQ"

/-- The runtime's answers for this code, under the check-in secret of `sampleRuntime`. -/
def visitRuntime : Api.Runtime :=
  { sampleRuntime with
    sign := fun s => if s = visitEncoded then "AOb8-k959u1ZjiSI6vq_d0RPhqsSIVwMqUgoyEsUvYE" else ""
    encode := fun p => if p = visitPayload then visitEncoded else ""
    decode := fun s => if s = visitEncoded then .payload visitPayload else .malformed }

def visitSetup : Setup where
  deployment := sampleSetup.deployment
  config := { Api.sampleConfig with runtime := visitRuntime }
  contract := rfl
  configured := by decide

theorem encode_visit : visitRuntime.encode visitPayload = visitEncoded := by
  simp only [visitRuntime, if_true]

theorem sign_visit :
    visitRuntime.sign visitEncoded = "AOb8-k959u1ZjiSI6vq_d0RPhqsSIVwMqUgoyEsUvYE" := by
  simp only [visitRuntime, if_true]

theorem visitEncoded_chars : '.' ∉ visitEncoded.toList := by
  unfold visitEncoded
  simp only [String.toList_append, List.mem_append, not_or]
  decide +kernel

theorem carries_visit : Api.CheckIn.Carries visitRuntime visitPayload := by
  refine ⟨?_, ?_, ?_, ?_, ?_⟩
  · rw [encode_visit]
    exact ⟨by decide +kernel, visitEncoded_chars⟩
  · rw [encode_visit, sign_visit]
    exact ⟨by decide +kernel, by decide +kernel⟩
  · rw [encode_visit]
    simp only [visitRuntime, if_true]
  · rw [Api.CheckIn.token, encode_visit, sign_visit]
    unfold visitEncoded Api.isText
    simp only [Api.utf16Length_append]
    decide +kernel
  · decide +kernel

theorem trim_visit : trim (Api.CheckIn.token visitRuntime visitPayload) =
    Api.CheckIn.token visitRuntime visitPayload := by
  refine Api.StellarConfig.trim_of_no_space ?_
  rw [Api.CheckIn.token, encode_visit, sign_visit]
  unfold visitEncoded
  simp only [String.toList_append, List.all_append]
  decide +kernel

/-- The deposit is in, and nobody has come back before the visit time. -/
def visitRun : List SiteAction :=
  fundedBoth.map .others ++ [.others (.chain (.close 1893492000 9))]

theorem deposit_recovered_visited : ∃ (x : Site) (row : BookingRow),
    (siteMachine visitSetup openSdk).exec sampleSite visitRun = some x ∧
    x.system.db.bookings.lookup "3b241101-e2bb-4255-8caf-4136c566a962" = some row ∧
    row.status = .funded ∧ ∃ b, Recovers visitSetup openSdk x
      "3b241101-e2bb-4255-8caf-4136c566a962" row 4261549847195894357 b .released .completed := by
  obtain ⟨x, row, b, e, hrun, hrow, hb, he, hid, hagree, hstatus, hstate, hrenter, hhost, htime,
      hnonces, hinst, hlive, hnew, hunsigned⟩ : ∃ x row b e,
      (siteMachine visitSetup openSdk).exec sampleSite visitRun = some x ∧
      x.system.db.bookings.lookup "3b241101-e2bb-4255-8caf-4136c566a962" = some row ∧
      x.system.chain.ledger.escrow.booking? 4261549847195894357 = some b ∧
      x.system.chain.ledger.escrow.bookings.lookup 4261549847195894357 = some e ∧
      idText 4261549847195894357 = row.onChainBookingId ∧ agreesWithRow b row = true ∧
      row.status = .funded ∧ b.state = .funded ∧ row.renter = "renter" ∧ row.host = "host" ∧
      b.visitTime ≤ x.system.chain.ledger.timestamp ∧ x.system.db.challenges = ∅ ∧
      x.system.chain.ledger.sequence ≤ x.system.chain.ledger.escrow.instanceLiveUntil ∧
      x.system.chain.ledger.sequence ≤ e.liveUntil ∧
      (∀ t ∈ x.system.chain.transactions,
        t.hash ≠ "369d8e27270351b658b102785616797dab62b659058ca2494872b6bd0181aca4") ∧
      x.signed = [] :=
    ⟨_, _, _, _, rfl, rfl, rfl, rfl, by decide +kernel, by decide +kernel, rfl, rfl, rfl, rfl,
      by decide +kernel, rfl, by decide +kernel, by decide +kernel, by decide +kernel, rfl⟩
  have hrecoverable : Recoverable visitSetup x 4261549847195894357 b
      "369d8e27270351b658b102785616797dab62b659058ca2494872b6bd0181aca4" fun _ _ _ _ => true := by
    refine ⟨hb, hstate, ⟨hinst, fun e' he' => ?_⟩, fun a ha => rfl, by decide, hnew,
      fun e' he' => by rw [hunsigned] at he'; cases he'⟩
    obtain rfl := Option.some.inj (he.symm.trans he')
    exact hlive
  refine ⟨x, row, hrun, hrow, hstatus, b, ?_⟩
  refine (deposit_recovered visitSetup openSdk sampleSite x visitRun
    ⟨⟨fresh_sampleStart.chain, fresh_sampleStart.server⟩, rfl, rfl⟩ hrun _ row hrow _ hid b hagree
    _ _ hrecoverable).2 htime rfl (by rw [hhost]; decide)
    (.inr ⟨hstatus, visitPayload.nonce, 1893492060000, ?_, ?_⟩)
  · rw [hrenter]
    exact ⟨carries_visit, by rw [hnonces]; rfl⟩
  · rw [hrenter]
    exact trim_visit

end Sample

end PovDeposit.Joint
