/-
  The pages as clients of the API and of the chain: the form (apps/web/components/
  booking-form.tsx) and the page of a booking (apps/web/components/booking-actions.tsx), over
  `invokeEscrow` (apps/web/lib/contract.ts) and the requests of apps/web/lib/booking.ts.

  A page does one thing at a time. It has the wallet sign an escrow call, waits for the
  transaction, and reports its hash to the API; until then nobody but the page knows that the
  hash is the one to report. `Site` runs any number of pages beside everybody else, who may
  call the escrow and the API as they like. A wallet that leaves, an RPC server that does not
  answer, a closed tab: each of these ends the run of a page, at any `await` (`fails`).

  A hash that `sendTransaction` takes is new to the chain, and the transaction that is applied
  under it is the one that was signed. A reference is trimmed before it is loaded.
-/
import PovDeposit.Api.Reading
import PovDeposit.Api.StellarConfig
import PovDeposit.Joint.Buttons
import PovDeposit.Joint.Checkout

namespace PovDeposit.Joint

open PovDeposit.Lib
open PovDeposit.Contract (Address)
open PovDeposit.Api (BookingRow BookingStatus Check CreateInput Db Request onChainBookingId path)
open PovDeposit.Api.StellarConfig (trim)

/-! ## The escrow calls -/

/-- The methods that take an account and the id of a booking. -/
inductive EscrowMethod where
  | fundBooking
  | cancelBooking
  | confirmVisit
  deriving DecidableEq, Repr

def EscrowMethod.call (method : EscrowMethod) (account : Address) (bookingId : UInt64) :
    Contract.Call :=
  match method with
  | .fundBooking => .fundBooking account bookingId
  | .cancelBooking => .cancelBooking account bookingId
  | .confirmVisit => .confirmVisit account bookingId

/-- `[nativeToScVal(wallet, ...), nativeToScVal(BigInt(onChainBookingId), ...)]` as the arguments
    of the method. -/
def escrowCall (sdk : Sdk) (method : EscrowMethod) (wallet : Address)
    (onChainBookingId : String) : Option Contract.Call := do
  let account ← addressToScVal sdk wallet
  let bookingId ← (bigInt onChainBookingId).bind (u64ToScVal sdk)
  match account, bookingId with
  | .address a, .u64 n => return method.call a n
  | _, _ => none

theorem escrowCall_idText {sdk : Sdk} {wallet : Address}
    (hwallet : sdk.isAddress wallet = true) (method : EscrowMethod) (n : UInt64) :
    escrowCall sdk method wallet (idText n) = some (method.call wallet n) := by
  have hread : (bigInt (idText n)).bind (u64ToScVal sdk) = some (.u64 n) := u64ToScVal_toString sdk n
  simp [escrowCall, hread, addressToScVal, hwallet]

/-- The event that a call publishes when it is committed, and its booking. -/
def published : Contract.Call → Option (String × UInt64)
  | .createBooking n _ _ _ _ => some ("booking_created", n)
  | .fundBooking _ n => some ("booking_funded", n)
  | .cancelBooking _ n => some ("deposit_refunded", n)
  | .confirmVisit _ n => some ("visit_confirmed", n)
  | .initializeEscrow _ _ => none
  | .booking _ => none

/-! ## Pages -/

/-- The request that a run ends with. -/
inductive Report where
  | fund
  | cancel
  | confirm
  deriving DecidableEq, Repr

def Report.request (id : String) (wallet : Address) (transactionHash : String) : Report → Request
  | .fund => .fund id transactionHash
  | .cancel => .cancel id wallet transactionHash
  | .confirm => .confirm id wallet transactionHash

/-- What a page waits for. -/
inductive Stage where
  /-- `invokeEscrow` up to `sendTransaction`, with the calls that follow this one -/
  | signing (call : Contract.Call) (rest : List Contract.Call) (report : Report)
  /-- its loop, with `left` answers of `getTransaction` to go -/
  | polling (call : Contract.Call) (rest : List Contract.Call) (report : Report) (hash : String)
      (left : Nat)
  /-- a request is on its way to the API -/
  | reporting (request : Request)
  /-- and has become its exchange `i` -/
  | waiting (request : Request) (i : Nat)
  deriving DecidableEq, Repr

structure Task where
  wallet : Address
  booking : Api.Workflow.Booking
  stage : Stage
  deriving DecidableEq, Repr

/-- One mounted form or one mounted page of a booking. -/
structure Page where
  /-- what is stored under `walletStorageKey`, as of the last render -/
  wallet : Option Address
  booking : Option Api.Workflow.Booking
  code : String
  /-- the run underway; without one the page is not `busy` -/
  task : Option Task
  deriving DecidableEq, Repr

inductive PageAction where
  | render (wallet : Option Address)
  | enter (code : String)
  | load (reference : String)
  | click (action : BookingAction)
  /-- the form is submitted; the API's clock and its `randomUUID` -/
  | submit (now : Int) (uuid : String) (body : CreateInput)
  /-- `sendTransaction` has taken the transaction -/
  | sent (hash : String)
  | poll (status : TransactionStatus)
  | arrive
  /-- the answer of the API; for a request that called the workflow, with call `k` -/
  | answer (k : Nat)
  | fails
  deriving DecidableEq, Repr

/-- `run` up to its first `await` -/
def BookingAction.begin (sdk : Sdk) (booking : Api.Workflow.Booking)
    (wallet : Address) (code : String) : BookingAction → Option Stage
  | .issueChallenge => some (.reporting (.checkInChallenge booking.id wallet))
  | .checkIn =>
      if trim code = "" then none else some (.reporting (.checkIn booking.id wallet (trim code)))
  | .confirm => (escrowCall sdk .confirmVisit wallet booking.onChainBookingId).map fun call =>
      .signing call [] .confirm
  | .cancel => (escrowCall sdk .cancelBooking wallet booking.onChainBookingId).map fun call =>
      .signing call [] .cancel

/-- The form's mutation from the answer of the API on. -/
def beginBooking (S : Setup) (sdk : Sdk) (db : Db) (wallet : Address) (now : Int)
    (uuid : String) (body : CreateInput) : Option Task := do
  let input ← body.parse S.config.runtime
  let (_, booking) ←
    (Api.Workflow.create S.config.runtime S.config.network db now uuid input).toOption
  let created ← formCall S.config.runtime sdk body booking.onChainBookingId
  let funded ← escrowCall sdk .fundBooking wallet booking.onChainBookingId
  return ⟨wallet, booking, .signing created [funded] .fund⟩

/-- The stage after one more answer of `getTransaction`. -/
def Task.polled (t : Task) (call : Contract.Call) (rest : List Contract.Call) (report : Report)
    (hash : String) (left : Nat) : TransactionStatus → Option Stage
  | .success =>
      match rest with
      | [] => some (.reporting (report.request t.booking.id t.wallet hash))
      | next :: rest => some (.signing next rest report)
  | .failed => none
  | .notFound => if left ≤ 1 then none else some (.polling call rest report hash (left - 1))

/-- What `getTransaction` answers is true; a transaction may be unknown to the server. -/
def Chain.answers (c : Chain) (hash : String) : TransactionStatus → Bool
  | .success => c.transactions.any fun t => t.hash = hash && t.successful
  | .failed => c.transactions.any fun t => t.hash = hash && !t.successful
  | .notFound => true

/-- The call of the workflow that an exchange with this request makes. -/
def Request.calls : Request → Api.Workflow.Call → Bool
  | .fund id hash, .fund id' hash' _ => id = id' && hash = hash'
  | .cancel id actor hash, .refund id' actor' hash' _ => id = id' && actor = actor' && hash = hash'
  | .checkIn id actor _, .checkIn id' actor' _ => id = id' && actor = actor'
  | .confirm id actor hash, .confirm id' actor' hash' => id = id' && actor = actor' && hash = hash'
  | _, _ => false

/-- The page after the answer to the request of exchange `i`, where it has one. -/
def Page.answered (p : Page) (s : State) (request : Request) (i k : Nat) : Option Page :=
  (s.server.exchange? i).bind fun e =>
    match e.phase with
    | .answered token => some { p with code := token, task := none }
    | .forwarded => (s.server.flow.call? k).bind fun process =>
        match process.stage with
        | .returned booking =>
          if Request.calls request process.call then
            match request with
            | .fund _ _ => some { p with task := none }
            | _ => some { p with booking := some booking, task := none }
          else none
        | _ => none
    | _ => none

/-- What a page does, with the step of the system that it comes with. -/
def Page.react (S : Setup) (sdk : Sdk) (s : State) (p : Page) :
    PageAction → Option (Option Action × Page)
  | .render wallet => some (none, { p with wallet := wallet })
  | .enter code => some (none, { p with code := code })
  | .load reference =>
      match p.task with
      | none =>
        some (none, { p with booking := (Api.Workflow.get S.config.runtime s.db reference).toOption })
      | some _ => none
  | .click action =>
      match p.task, p.booking, p.wallet with
      | none, some booking, some wallet =>
        if action ∈ availableActions booking (some wallet) then
          some (none, { p with task := (action.begin sdk booking wallet p.code).map fun stage =>
            ⟨wallet, booking, stage⟩ })
        else none
      | _, _, _ => none
  | .submit now uuid body =>
      match p.task, p.wallet with
      | none, some wallet =>
        if wallet = body.renter then
          some (some (.api (.create wallet now uuid body)),
            { p with task := beginBooking S sdk s.db wallet now uuid body })
        else none
      | _, _ => none
  | .sent hash => p.task.bind fun t =>
      match t.stage with
      | .signing call rest report =>
        if isTransactionHash hash && !s.chain.transactions.any fun t => t.hash = hash then
          some (none, { p with task := some { t with stage := .polling call rest report hash 30 } })
        else none
      | _ => none
  | .poll status => p.task.bind fun t =>
      match t.stage with
      | .polling call rest report hash left =>
        if s.chain.answers hash status then
          some (none, { p with task := (t.polled call rest report hash left status).map fun stage =>
            { t with stage := stage } })
        else none
      | _ => none
  | .arrive => p.task.bind fun t =>
      match t.stage with
      | .reporting request => some (some (.api (.receive t.wallet request)),
          { p with task := some { t with stage := .waiting request s.server.exchanges.length } })
      | _ => none
  | .answer k => p.task.bind fun t =>
      match t.stage with
      | .waiting request i => (p.answered s request i k).map fun p => (none, p)
      | _ => none
  | .fails => p.task.map fun _ => (none, { p with task := none })

/-! ## The site -/

structure Site where
  system : State
  pages : List Page
  /-- what the pages have had signed: the hash, the wallet and the call -/
  signed : List (String × Address × Contract.Call)

inductive SiteAction where
  /-- what anybody else does -/
  | others (a : Action)
  | mount
  | page (k : Nat) (a : PageAction)

/-- The transaction is the one call that the wallet signed, and succeeds with it. -/
def State.carries (S : Setup) (s : State) (hash : String) (successful : Bool)
    (calls : List Invocation) (wallet : Address) (call : Contract.Call) : Bool :=
  match calls with
  | [c] => c.auths = [wallet] && c.call = call &&
      successful = (Contract.invoke (s.chain.ledger.env S.deployment hash [wallet] c.tokenAccepts)
        s.chain.ledger.escrow call).isOk
  | _ => false

/-- Under a hash that a page has sent, nothing else is applied than what was signed. -/
def Site.admits (S : Setup) (x : Site) : Action → Bool
  | .chain (.transaction hash successful calls) => x.signed.all fun e =>
      e.1 ≠ hash || x.system.carries S hash successful calls e.2.1 e.2.2
  | _ => true

/-- What a step of page `p` adds to the signed transactions. -/
def Page.signs (p : Page) : PageAction → List (String × Address × Contract.Call)
  | .sent hash =>
      match p.task with
      | some ⟨wallet, _, .signing call _ _⟩ => [(hash, wallet, call)]
      | _ => []
  | _ => []

def Site.step (S : Setup) (sdk : Sdk) (x : Site) : SiteAction → Option Site
  | .others a =>
      if x.admits S a then (Joint.step S x.system a).map fun s => { x with system := s } else none
  | .mount => some { x with pages := x.pages ++ [⟨none, none, "", none⟩] }
  | .page k a => (x.pages[k]?).bind fun p =>
      (p.react S sdk x.system a).bind fun (move, p') =>
        (move.elim (some x.system) (Joint.step S x.system)).map fun s =>
          ⟨s, x.pages.set k p', x.signed ++ p.signs a⟩

def siteMachine (S : Setup) (sdk : Sdk) : Machine Site SiteAction where
  init x := FreshSystem S x.system ∧ x.pages = [] ∧ x.signed = []
  step := Site.step S sdk

/-! ## A step of the site -/

section Inversion

variable {S : Setup} {sdk : Sdk} {x x' : Site}

/-- A step is one of somebody else, or a page comes up, or one of the pages acts. -/
theorem site_step_cases {act : SiteAction} (h : x.step S sdk act = some x') :
    (∃ a s, act = .others a ∧ x.admits S a = true ∧ Joint.step S x.system a = some s ∧
      x' = { x with system := s }) ∨
    (act = .mount ∧ x' = { x with pages := x.pages ++ [⟨none, none, "", none⟩] }) ∨
    (∃ k a p move p' s, act = .page k a ∧ x.pages[k]? = some p ∧
      p.react S sdk x.system a = some (move, p') ∧
      move.elim (some x.system) (Joint.step S x.system) = some s ∧
      x' = ⟨s, x.pages.set k p', x.signed ++ p.signs a⟩) := by
  cases act with
  | others a =>
    simp only [Site.step, Option.ite_none_right_eq_some, Option.map_eq_some_iff] at h
    obtain ⟨hadmits, s, hs, rfl⟩ := h
    exact .inl ⟨a, s, rfl, hadmits, hs, rfl⟩
  | mount =>
    cases h
    exact .inr (.inl ⟨rfl, rfl⟩)
  | page k a =>
    obtain ⟨p, hp, h⟩ := Option.bind_eq_some_iff.mp h
    obtain ⟨⟨move, p'⟩, hreact, h⟩ := Option.bind_eq_some_iff.mp h
    obtain ⟨s, hs, rfl⟩ := Option.map_eq_some_iff.mp h
    exact .inr (.inr ⟨k, a, p, move, p', s, rfl, hp, hreact, hs, rfl⟩)

/-- What page `p` can come to. -/
inductive Reacts (S : Setup) (sdk : Sdk) (s : State) (p : Page) :
    PageAction → Option Action → Page → Prop where
  | render (wallet : Option Address) : Reacts S sdk s p (.render wallet) none
      { p with wallet := wallet }
  | enter (code : String) : Reacts S sdk s p (.enter code) none { p with code := code }
  | load (reference : String) (htask : p.task = none) :
      Reacts S sdk s p (.load reference) none
        { p with booking := (Api.Workflow.get S.config.runtime s.db reference).toOption }
  | click (action : BookingAction) (booking : Api.Workflow.Booking) (wallet : Address)
      (htask : p.task = none) (hbooking : p.booking = some booking) (hwallet : p.wallet = some wallet)
      (hoffered : action ∈ availableActions booking (some wallet)) :
      Reacts S sdk s p (.click action) none
        { p with task := (action.begin sdk booking wallet p.code).map fun stage =>
          ⟨wallet, booking, stage⟩ }
  | submit (now : Int) (uuid : String) (body : CreateInput) (wallet : Address)
      (htask : p.task = none) (hwallet : p.wallet = some wallet) (hrenter : wallet = body.renter) :
      Reacts S sdk s p (.submit now uuid body) (some (.api (.create wallet now uuid body)))
        { p with task := beginBooking S sdk s.db wallet now uuid body }
  | sent (hash : String) (t : Task) (call : Contract.Call) (rest : List Contract.Call)
      (report : Report) (ht : p.task = some t) (hstage : t.stage = .signing call rest report)
      (hhash : isTransactionHash hash = true) (hnew : ∀ r ∈ s.chain.transactions, r.hash ≠ hash) :
      Reacts S sdk s p (.sent hash) none
        { p with task := some { t with stage := .polling call rest report hash 30 } }
  | polled (status : TransactionStatus) (t : Task) (call : Contract.Call)
      (rest : List Contract.Call) (report : Report) (hash : String) (left : Nat)
      (ht : p.task = some t) (hstage : t.stage = .polling call rest report hash left)
      (hanswer : s.chain.answers hash status = true) :
      Reacts S sdk s p (.poll status) none
        { p with task := (t.polled call rest report hash left status).map fun stage =>
          { t with stage := stage } }
  | arrive (t : Task) (request : Request) (ht : p.task = some t)
      (hstage : t.stage = .reporting request) :
      Reacts S sdk s p .arrive (some (.api (.receive t.wallet request)))
        { p with task := some { t with stage := .waiting request s.server.exchanges.length } }
  | shown (k : Nat) (token : String) (ht : p.task.isSome = true) :
      Reacts S sdk s p (.answer k) none { p with code := token, task := none }
  | done (k : Nat) (ht : p.task.isSome = true) :
      Reacts S sdk s p (.answer k) none { p with task := none }
  | updated (k : Nat) (process : Api.Workflow.Process) (booking : Api.Workflow.Booking)
      (ht : p.task.isSome = true) (hprocess : s.server.flow.call? k = some process)
      (hreturned : process.stage = .returned booking) :
      Reacts S sdk s p (.answer k) none { p with booking := some booking, task := none }
  | failed (ht : p.task.isSome = true) :
      Reacts S sdk s p .fails none { p with task := none }

/-- The pages send requests to the API, and nothing else. -/
theorem move_of_reacts {s : State} {p p' : Page} {a : PageAction} {move : Action}
    (h : Reacts S sdk s p a (some move) p') : ∃ request, move = .api request := by
  cases h with
  | submit => exact ⟨_, rfl⟩
  | arrive => exact ⟨_, rfl⟩

theorem signs_sent {p : Page} {t : Task} {call : Contract.Call} {rest : List Contract.Call}
    {report : Report} {hash : String} (ht : p.task = some t)
    (hstage : t.stage = .signing call rest report) :
    p.signs (.sent hash) = [(hash, t.wallet, call)] := by
  obtain ⟨wallet, booking, stage⟩ := t
  obtain rfl : stage = .signing call rest report := hstage
  simp only [Page.signs, ht]

theorem reacts_of_answer {s : State} {p p' : Page} {t : Task} {request : Request} {i k : Nat}
    (ht : p.task = some t) (h : p.answered s request i k = some p') :
    Reacts S sdk s p (.answer k) none p' := by
  have hsome : p.task.isSome = true := by rw [ht]; rfl
  obtain ⟨e, -, h⟩ := Option.bind_eq_some_iff.mp h
  split at h
  · rename_i token _
    cases h
    exact .shown k token hsome
  · obtain ⟨process, hprocess, h⟩ := Option.bind_eq_some_iff.mp h
    split at h
    · rename_i booking hreturned
      split at h
      · split at h
        · cases h
          exact .done _ hsome
        · cases h
          exact .updated k process booking hsome hprocess hreturned
      · cases h
    · cases h
  · cases h

theorem reacts_of_react {s : State} {p p' : Page} {a : PageAction} {move : Option Action}
    (h : p.react S sdk s a = some (move, p')) : Reacts S sdk s p a move p' := by
  cases a with
  | render wallet =>
    cases h
    exact .render wallet
  | enter code =>
    cases h
    exact .enter code
  | load reference =>
    simp only [Page.react] at h
    split at h
    · rename_i htask
      cases h
      exact .load reference htask
    · cases h
  | click action =>
    simp only [Page.react] at h
    split at h
    · rename_i booking wallet htask hbooking hwallet
      split at h
      · rename_i hoffered
        cases h
        exact .click action booking wallet htask hbooking hwallet hoffered
      · cases h
    · cases h
  | submit now uuid body =>
    simp only [Page.react] at h
    split at h
    · rename_i wallet htask hwallet
      split at h
      · rename_i hrenter
        cases h
        exact .submit now uuid body wallet htask hwallet hrenter
      · cases h
    · cases h
  | sent hash =>
    obtain ⟨t, ht, h⟩ := Option.bind_eq_some_iff.mp h
    split at h
    · rename_i call rest report hstage
      split at h
      · rename_i hfresh
        cases h
        simp only [Bool.and_eq_true, Bool.not_eq_true', List.any_eq_false, decide_eq_true_eq] at hfresh
        exact .sent hash t call rest report ht hstage hfresh.1 hfresh.2
      · cases h
    · cases h
  | poll status =>
    obtain ⟨t, ht, h⟩ := Option.bind_eq_some_iff.mp h
    split at h
    · rename_i call rest report hash left hstage
      split at h
      · rename_i hanswer
        cases h
        exact .polled status t call rest report hash left ht hstage hanswer
      · cases h
    · cases h
  | arrive =>
    obtain ⟨t, ht, h⟩ := Option.bind_eq_some_iff.mp h
    split at h
    · rename_i request hstage
      cases h
      exact .arrive t request ht hstage
    · cases h
  | answer k =>
    obtain ⟨t, ht, h⟩ := Option.bind_eq_some_iff.mp h
    split at h
    · obtain ⟨q, hq, heq⟩ := Option.map_eq_some_iff.mp h
      cases heq
      exact reacts_of_answer ht hq
    · cases h
  | fails =>
    obtain ⟨t, ht, h⟩ := Option.map_eq_some_iff.mp h
    cases h
    exact .failed (by rw [ht]; rfl)

end Inversion

end PovDeposit.Joint
