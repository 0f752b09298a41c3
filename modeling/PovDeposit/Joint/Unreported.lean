/-
  What becomes of a transaction whose hash is lost.

  A page knows the hash of the transaction that it waits for, and forgets it when its run
  fails: `invokeEscrow` gives up after thirty answers, a request is refused or does not come
  back, the tab is closed. No page looks for the hash again, and a later run signs a new
  transaction. So once nobody has the hash at hand, the row never gets the status that rests
  on it (`unreported_stays_unreported`). A deposit that went in unreported is then out of reach
  of the pages altogether: its row awaits the funding for good, and the pages offer nothing for
  such a row, so the deposit stays in the escrow (`deposit_stranded`).

  Both are about the pages as the only clients. Anybody who has the hash can still report it
  to the API, and the renter can call the contract with another client.
-/
import PovDeposit.Joint.Reports

namespace PovDeposit.Joint

open PovDeposit.Lib
open PovDeposit.Contract (Address BookingState LoggedEvent eventsOf)
open PovDeposit.Api (BookingRow BookingStatus Check Phase Request path)

/-! ## Who has a hash at hand -/

/-- A request to record the event `name` for row `id` under the hash. -/
def Request.Brings (R : Api.Runtime) (id name hash : String) (request : Request) : Prop :=
  R.uuid request.id = some id ∧ ∃ check ∈ request.check?, check.expectedEvent = name ∧
    check.transactionHash = hash

/-- A call of the workflow that would. -/
def CallBrings (R : Api.Runtime) (id name hash : String) (c : Api.Workflow.Call) : Prop :=
  R.uuid c.op.id = some id ∧ evidence c.op.target = some name ∧ c.op.hash = hash

def Stage.Brings (R : Api.Runtime) (id name hash : String) : Stage → Prop
  | .signing _ _ _ => False
  | .polling _ _ _ hash' _ => hash' = hash
  | .reporting request => Request.Brings R id name hash request
  | .waiting _ _ => False

/-- No request with the hash, and no call, is underway at the API. -/
structure Unheard (R : Api.Runtime) (s : Api.Server) (id name hash : String) : Prop where
  exchanges : ∀ i e, s.exchange? i = some e → e.phase.atWork = true →
    ¬ Request.Brings R id name hash e.request ∧
      ∀ c, e.phase = .ready c → ¬ CallBrings R id name hash c
  calls : ∀ k p, s.flow.call? k = some p → p.stage.inFlight = true →
    ¬ CallBrings R id name hash p.call

/-- And no page waits for the transaction or is about to report it. -/
structure Forgotten (R : Api.Runtime) (x : Site) (id name hash : String) : Prop where
  unheard : Unheard R x.system.server id name hash
  pages : ∀ (k : Nat) (p : Page) (t : Task), x.pages[k]? = some p → p.task = some t →
    ¬ t.stage.Brings R id name hash

/-- Somebody else tells the API. -/
def SiteAction.Tells (R : Api.Runtime) (id name hash : String) : SiteAction → Prop
  | .others (.api (.receive _ request)) => Request.Brings R id name hash request
  | _ => False

theorem brings_of_check {R : Api.Runtime} {id name hash : String} {request : Request}
    {check : Check} (hcheck : request.check? = some check) {v : Api.Workflow.Verification}
    (h : CallBrings R id name hash (check.call v)) : Request.Brings R id name hash request := by
  obtain ⟨hid, hevidence, hhash⟩ := h
  obtain ⟨hcall, hcallHash, hcallEvidence, -⟩ := call_of_check hcheck v
  refine ⟨hcall ▸ hid, check, hcheck, ?_, hcallHash.symm.trans hhash⟩
  exact Option.some.inj (hcallEvidence.symm.trans hevidence)

/-- A call brings what it brings, read or not. -/
theorem brings_of_read {R : Api.Runtime} {id name hash : String} {c : Api.Workflow.Call}
    (h : CallBrings R id name hash (c.read R)) : CallBrings R id name hash c := by
  unfold CallBrings at h ⊢
  rw [Api.Workflow.read_op] at h
  obtain ⟨hid, hrest⟩ := h
  refine ⟨?_, hrest⟩
  cases hread : R.uuid c.op.id with
  | none => simp [hread] at hid
  | some k => simpa [hread, R.uuid_idem _ _ hread] using hid

/-! ## Calls in flight -/

/-- A step of a call finds it in flight. -/
theorem inFlight_of_quiet {s : Api.Workflow.State} {a : Api.Workflow.Action} {i : Nat}
    {p : Api.Workflow.Process} {stage : Api.Workflow.Stage}
    (h : Api.Workflow.Quiet s a i p stage) : p.stage.inFlight = true := by
  cases h with
  | read b row hstage => rw [hstage]; rfl
  | opened b row hstage => rw [hstage]; rfl
  | paid b hstage => rw [hstage]; rfl
  | logged b hstage => rw [hstage]; rfl
  | returned b hstage => rw [hstage]; rfl
  | threw e hflight => exact hflight
  | stopped hflight => exact hflight

/-- A call in flight was in flight before the step, or the step is its arrival. -/
theorem inFlight_of_step {R : Api.Runtime} {network : String} {s s' : Api.Workflow.State}
    {a : Api.Workflow.Action} (hstep : Api.Workflow.step R network s a = some s') {k : Nat}
    {p' : Api.Workflow.Process} (hp' : s'.call? k = some p') (hflight : p'.stage.inFlight = true) :
    (∃ p, s.call? k = some p ∧ p.call = p'.call ∧ p.stage.inFlight = true) ∨
      ∃ c, a = .call c ∧ p'.call = c.read R := by
  -- call `i` was in flight when it moved
  have hmove : ∀ (t : Api.Workflow.State) i p q, s.call? i = some p → t.calls = s.calls →
      p.stage.inFlight = true → (t.move i q).call? k = some p' → q.call = p.call →
      ∃ p, s.call? k = some p ∧ p.call = p'.call ∧ p.stage.inFlight = true := by
    intro t i p q hp ht hwas hp' hsame
    have hcalls : (t.move i q).calls = (s.move i q).calls := by
      rw [Api.Workflow.State.move, Api.Workflow.State.move, ht]
    rcases Api.Workflow.call?_of_move hp hcalls hp' with ⟨rfl, rfl⟩ | ⟨-, hp'⟩
    · exact ⟨p, hp, hsame.symm, hwas⟩
    · exact ⟨p', hp', rfl, hflight⟩
  cases Api.Workflow.moves_of_step hstep with
  | rejected => exact .inl ⟨p', hp', rfl, hflight⟩
  | create => exact .inl ⟨p', hp', rfl, hflight⟩
  | others => exact .inl ⟨p', hp', rfl, hflight⟩
  | call c =>
    rcases Api.Workflow.call?_of_append rfl hp' with hp | rfl
    · exact .inl ⟨p', hp, rfl, hflight⟩
    · exact .inr ⟨c, rfl, rfl⟩
  | quiet _ i p stage hmover hp hquiet =>
    exact .inl (hmove s i p _ hp rfl (inFlight_of_quiet hquiet) hp' rfl)
  | update i p b row hp hstage => exact .inl (hmove _ i p _ hp rfl (by rw [hstage]; rfl) hp' rfl)
  | record i p b hp hstage => exact .inl (hmove _ i p _ hp rfl (by rw [hstage]; rfl) hp' rfl)
  | commit i p b kind v missing hp hstage =>
    exact .inl (hmove _ i p _ hp rfl (by rw [hstage]; rfl) hp' rfl)

/-- What a call that moves its row finds it to be. -/
theorem inFlight_of_advance {R : Api.Runtime} {network : String} {s s' : Api.Workflow.State} {k : Nat}
    {p : Api.Workflow.Process} (hstep : Api.Workflow.step R network s (.advance k) = some s')
    (hp : s.call? k = some p) : p.stage.inFlight = true := by
  cases hstage : p.stage with
  | returned b => simp [Api.Workflow.step, hp, Api.Workflow.advance, hstage] at hstep
  | threw e => simp [Api.Workflow.step, hp, Api.Workflow.advance, hstage] at hstep
  | stopped => simp [Api.Workflow.step, hp, Api.Workflow.advance, hstage] at hstep
  | _ => rfl

/-! ## Steps of the API -/

section Api

variable {C : Api.Config} {s s' : Api.Server} {id name hash : String}
  (h : Unheard C.runtime s id name hash)
include h

theorem Unheard.calls_step {fa : Api.Workflow.Action} {flow : Api.Workflow.State}
    (hflow : Api.Workflow.step C.runtime C.network s.flow fa = some flow)
    (hnew : ∀ c, fa = .call c → ¬ CallBrings C.runtime id name hash c) :
    ∀ k p, flow.call? k = some p → p.stage.inFlight = true →
      ¬ CallBrings C.runtime id name hash p.call := by
  intro k p hp hflight
  rcases inFlight_of_step hflow hp hflight with ⟨q, hq, hsame, hqflight⟩ | ⟨c, ha, hread⟩
  · exact hsame ▸ h.calls k q hq hqflight
  · exact fun hbrings => hnew c ha (brings_of_read (hread ▸ hbrings))

/-- The exchanges after one of them moved on. -/
theorem Unheard.exchanges_turn {i : Nat} {e : Api.Exchange} {phase : Phase}
    (he : s.exchange? i = some e) (hwork : e.phase.atWork = true)
    (hready : ∀ c, phase = .ready c → ¬ CallBrings C.runtime id name hash c)
    (hexchanges : s'.exchanges = (s.turn i { e with phase := phase }).exchanges) :
    ∀ j x, s'.exchange? j = some x → x.phase.atWork = true →
      ¬ Request.Brings C.runtime id name hash x.request ∧
        ∀ c, x.phase = .ready c → ¬ CallBrings C.runtime id name hash c := by
  intro j x hx hxwork
  rcases Api.exchange?_of_turn he hexchanges hx with ⟨-, rfl⟩ | ⟨-, hx⟩
  · exact ⟨(h.exchanges i e he hwork).1, hready⟩
  · exact h.exchanges j x hx hxwork

theorem Unheard.step {a : Api.Action} (hstep : Api.step C s a = some s')
    (hquiet : ∀ sender request, a = .receive sender request →
      ¬ Request.Brings C.runtime id name hash request) : Unheard C.runtime s' id name hash := by
  cases Api.serves_of_step hstep with
  | drive _ fa flow ha hflow =>
    refine ⟨h.exchanges, h.calls_step hflow fun c hfa => ?_⟩
    subst hfa
    cases a <;> simp [Api.Action.drives] at ha
  | refused => exact h
  | receive sender request phase hphase =>
    refine ⟨fun i e he hwork => ?_, h.calls⟩
    rcases getElem?_of_concat he with he | ⟨-, rfl⟩
    · exact h.exchanges i e he hwork
    · refine ⟨hquiet sender request rfl, fun c hc => ?_⟩
      rw [hphase] at hc
      split at hc <;> cases hc
  | turn _ i e phase he hturn =>
    have hwork : e.phase.atWork = true := by
      cases hturn with
      | found b row ha hkind hphase => rw [hphase]; rfl
      | verified t events check b v ha hcheck hphase => rw [hphase]; rfl
      | issuing id actor b now nonce hrequest hphase => rw [hphase]; rfl
      | spending id actor token payload c hrequest hphase => rw [hphase]; rfl
      | rejected error hphase => exact hphase
    refine ⟨h.exchanges_turn he hwork (fun c hc => ?_) rfl, h.calls⟩
    -- only a verification makes a call of the request
    cases hturn with
    | verified t events check b v ha hcheck hphase =>
      cases hc
      exact fun hbrings => (h.exchanges i e he hwork).1 (brings_of_check hcheck hbrings)
    | _ => cases hc
  | store i e payload expiresAt k he hphase hk hnew flow hflow =>
    exact ⟨h.exchanges_turn he (by rw [hphase]; rfl) (fun c hc => by cases hc) rfl,
      h.calls_step hflow fun c hc => by cases hc⟩
  | spend i now e id' actor token payload challenge he hrequest hphase hfound hunspent flow hflow =>
    refine ⟨h.exchanges_turn he (by rw [hphase]; rfl) (fun c hc hbrings => ?_) rfl,
      h.calls_step hflow fun c hc => by cases hc⟩
    cases hc
    cases hbrings.2.1
  | forward i e call he hphase flow hflow =>
    have hwork : e.phase.atWork = true := by rw [hphase]; rfl
    refine ⟨h.exchanges_turn he hwork (fun c hc => by cases hc) rfl,
      h.calls_step hflow fun c hc => ?_⟩
    cases hc
    exact (h.exchanges i e he hwork).2 call hphase
  | auth sender action wallets auth flow hflow =>
    exact ⟨h.exchanges, h.calls_step hflow fun c hc => by cases hc⟩

end Api

/-- A row that lacks the status of an event which nobody reports. -/
structure Lacking (s : State) (id name hash : String) (status : BookingStatus) (row : BookingRow) :
    Prop where
  stored : s.db.bookings.lookup id = some row
  evidence : evidence status = some name
  shown : Shown s.log name row.onChainBookingId hash
  lacks : status ∉ path row.status

theorem Lacking.step {S : Setup} {s s' : State} {a : Action} {id name hash : String}
    {status : BookingStatus} {row : BookingRow} (h : Lacking s id name hash status row)
    (hbacked : Backed S s) (hunheard : Unheard S.config.runtime s.server id name hash)
    (hstep : step S s a = some s') : ∃ row', Lacking s' id name hash status row' := by
  have hlog := log_of_step hbacked hstep
  cases a with
  | chain a =>
    obtain ⟨chain, -, rfl⟩ := Option.map_eq_some_iff.mp hstep
    exact ⟨row, h.stored, h.evidence, shown_mono hlog h.shown, h.lacks⟩
  | api a =>
    simp only [Joint.step, Option.ite_none_right_eq_some, Option.map_eq_some_iff] at hstep
    obtain ⟨-, server, hserver, rfl⟩ := hstep
    rcases Api.flow_of_step hserver with hsame | ⟨fa, hfa⟩
    · refine ⟨row, ?_, h.evidence, h.shown, h.lacks⟩
      show server.flow.db.bookings.lookup id = some row
      rw [hsame]
      exact h.stored
    · obtain ⟨row', hrow', hcases⟩ := Api.Workflow.row_step hbacked.paid.coherent hfa h.stored
      rcases hcases with rfl | ⟨k, p, rfl, hp, hcall, hadmits, rfl⟩
      · exact ⟨row', hrow', h.evidence, h.shown, h.lacks⟩
      · refine ⟨_, hrow', h.evidence, h.shown, fun hin => ?_⟩
        -- the status would be new, from a call that rests on the event
        change status ∈ path p.op.target at hin
        rw [Api.Workflow.path_target p.call, ← (Api.Workflow.admits_iff.mp hadmits).1, List.mem_append,
          List.mem_singleton] at hin
        rcases hin with hold | rfl
        · exact h.lacks hold
        · obtain ⟨x, hx, hshown⟩ := (hbacked.calls k p hp).evident name h.evidence
          obtain rfl : row = x := by
            rw [hcall] at hx
            exact Option.some.inj (h.stored.symm.trans hx)
          have hhash := shown_unique hbacked.logged.chronicled hshown h.shown
          exact hunheard.calls k p hp (inFlight_of_advance hfa hp)
            ⟨hcall ▸ hbacked.spelled id row h.stored, h.evidence, hhash⟩

/-! ## Steps of the site -/

theorem Unheard.joint_step {S : Setup} {s s' : State} {a : Action} {id name hash : String}
    (h : Unheard S.config.runtime s.server id name hash) (hstep : Joint.step S s a = some s')
    (hquiet : ∀ sender request, a = .api (.receive sender request) →
      ¬ Request.Brings S.config.runtime id name hash request) :
    Unheard S.config.runtime s'.server id name hash := by
  cases a with
  | chain a =>
    obtain ⟨chain, -, rfl⟩ := Option.map_eq_some_iff.mp hstep
    exact h
  | api a =>
    simp only [Joint.step, Option.ite_none_right_eq_some, Option.map_eq_some_iff] at hstep
    obtain ⟨-, server, hserver, rfl⟩ := hstep
    exact h.step hserver fun sender request ha => hquiet sender request (congrArg Action.api ha)

theorem begin_brings {R : Api.Runtime} {sdk : Sdk} {b : Api.Workflow.Booking} {wallet : Address}
    {code : String} {action : BookingAction} {stage : Stage} {id name hash : String}
    (h : action.begin sdk b wallet code = some stage) : ¬ stage.Brings R id name hash := by
  cases action with
  | issueChallenge =>
    cases h
    rintro ⟨-, check, hcheck, -⟩
    cases hcheck
  | checkIn =>
    simp only [BookingAction.begin] at h
    split at h
    · cases h
    · cases h
      rintro ⟨-, check, hcheck, -⟩
      cases hcheck
  | confirm =>
    obtain ⟨call, -, rfl⟩ := Option.map_eq_some_iff.mp h
    exact fun hin => hin
  | cancel =>
    obtain ⟨call, -, rfl⟩ := Option.map_eq_some_iff.mp h
    exact fun hin => hin

/-- A report has the hash that its run has polled. -/
theorem polled_brings {R : Api.Runtime} {t : Task} {call : Contract.Call} {rest : List Contract.Call}
    {report : Report} {hash hash' id name : String} {left : Nat} {status : TransactionStatus}
    {stage : Stage} (h : t.polled call rest report hash' left status = some stage)
    (hne : hash' ≠ hash) : ¬ stage.Brings R id name hash := by
  cases status with
  | success =>
    cases rest with
    | cons next rest =>
      cases h
      exact fun hin => hin
    | nil =>
      cases h
      rintro ⟨-, check, hcheck, -, hhash⟩
      cases report <;> cases hcheck <;> exact hne hhash
  | failed => cases h
  | notFound =>
    simp only [Task.polled] at h
    split at h
    · cases h
    · cases h
      exact hne

theorem Forgotten.step {S : Setup} {sdk : Sdk} {x x' : Site} {act : SiteAction}
    {id name hash : String} {status : BookingStatus} {row : BookingRow} (hsound : x.Sound S)
    (h : Forgotten S.config.runtime x id name hash)
    (hlacking : Lacking x.system id name hash status row)
    (hstep : x.step S sdk act = some x') (hquiet : ¬ act.Tells S.config.runtime id name hash) :
    Forgotten S.config.runtime x' id name hash ∧
      ∃ row', Lacking x'.system id name hash status row' := by
  rcases site_step_cases hstep with ⟨a, s, rfl, -, hs, rfl⟩ | ⟨-, rfl⟩ |
    ⟨k, a, p, move, p', s, -, hp, hreact, hs, rfl⟩
  · refine ⟨⟨h.unheard.joint_step hs fun sender request ha => ?_, h.pages⟩,
      hlacking.step hsound.backed h.unheard hs⟩
    subst ha
    exact hquiet
  · refine ⟨⟨h.unheard, fun k p t hp ht => ?_⟩, row, hlacking⟩
    rcases getElem?_of_concat hp with hp | ⟨-, rfl⟩
    · exact h.pages k p t hp ht
    · cases ht
  · have hreacts := reacts_of_react hreact
    obtain ⟨hk, -⟩ := List.getElem?_eq_some_iff.mp hp
    -- what the page sends, if it sends something
    have hsystem : Unheard S.config.runtime s.server id name hash ∧
        ∃ row', Lacking s id name hash status row' := by
      cases hreacts with
      | submit now uuid body wallet hnone hwallet hrenter =>
        change Joint.step S x.system (.api (.create wallet now uuid body)) = some s at hs
        exact ⟨h.unheard.joint_step hs fun sender request ha => (by cases ha),
          hlacking.step hsound.backed h.unheard hs⟩
      | arrive t request ht hstage =>
        change Joint.step S x.system (.api (.receive t.wallet request)) = some s at hs
        refine ⟨h.unheard.joint_step hs fun sender request' ha => ?_,
          hlacking.step hsound.backed h.unheard hs⟩
        cases ha
        have hpage := h.pages k p t hp ht
        rw [hstage] at hpage
        exact hpage
      | _ =>
        cases hs
        exact ⟨h.unheard, row, hlacking⟩
    refine ⟨⟨hsystem.1, fun j q t hq ht => ?_⟩, hsystem.2⟩
    rcases getElem?_of_set hk hq with ⟨-, rfl⟩ | ⟨-, hq⟩
    · cases hreacts with
      | render wallet => exact h.pages k p t hp ht
      | enter code => exact h.pages k p t hp ht
      | load reference hnone => exact h.pages k p t hp ht
      | click action booking wallet hnone hb hwallet hoffered =>
        obtain ⟨stage, hstage, rfl⟩ := Option.map_eq_some_iff.mp ht
        exact begin_brings hstage
      | submit now uuid body wallet hnone hwallet hrenter =>
        simp only [beginBooking, Option.bind_eq_bind, Option.bind_eq_some_iff, Option.pure_def,
          Option.some.injEq, Prod.exists] at ht
        obtain ⟨_, -, _, _, -, _, -, _, -, rfl⟩ := ht
        exact fun hin => hin
      | sent hash' t' call rest report ht' hstage hhash hnew =>
        obtain rfl := Option.some.inj ht
        -- the hash of the event is on the chain already
        obtain ⟨e, he, -, -, hsame⟩ := hlacking.shown
        obtain ⟨r, hr, hrecorded, -⟩ := hsound.backed.logged.events e he
        exact fun hin => hnew r hr (hrecorded.trans (hsame.trans (Eq.symm hin)))
      | polled status t' call rest report hash' left ht' hstage hanswer =>
        have hpage := h.pages k p t' hp ht'
        rw [hstage] at hpage
        obtain ⟨stage, hnext, rfl⟩ := Option.map_eq_some_iff.mp ht
        exact polled_brings hnext hpage
      | arrive t' request ht' hstage =>
        obtain rfl := Option.some.inj ht
        exact fun hin => hin
      | shown => cases ht
      | done => cases ht
      | updated => cases ht
      | failed => cases ht
    · exact h.pages j q t hq ht

/-- **What goes unreported stays unreported.** In any run of the site, take a moment `x` at
    which the log has the event that a status rests on, for a row that has not had the status,
    and at which nobody has the hash of the event at hand: no page waits for it or is about to
    report it, and no request or call with it is underway. If nobody but the pages reports it
    afterwards, the row never gets the status. -/
theorem unreported_stays_unreported (S : Setup) (sdk : Sdk) (x₀ x y : Site)
    (as bs : List SiteAction) (h₀ : (siteMachine S sdk).init x₀)
    (hrun : (siteMachine S sdk).exec x₀ as = some x) (id name hash : String)
    (status : BookingStatus) (row : BookingRow) (hlacking : Lacking x.system id name hash status row)
    (hforgotten : Forgotten S.config.runtime x id name hash)
    (hrest : (siteMachine S sdk).exec x bs = some y)
    (hquiet : ∀ act ∈ bs, ¬ act.Tells S.config.runtime id name hash) :
    Forgotten S.config.runtime y id name hash ∧
      ∃ row', Lacking y.system id name hash status row' := by
  have hlast := (siteMachine S sdk).exec_invariant_along
    (I := fun z => z.Sound S ∧ Forgotten S.config.runtime z id name hash ∧
      ∃ row', Lacking z.system id name hash status row')
    (P := fun _ act => ¬ act.Tells S.config.runtime id name hash)
    (fun z act z' hz hact hstep => by
      obtain ⟨hsound, hforgotten, row', hlacking⟩ := hz
      exact ⟨sound_step z act z' hsound hstep, hforgotten.step hsound hlacking hstep hact⟩)
    hrest ((siteMachine S sdk).along_of_forall x hquiet)
    ⟨sound_of_exec h₀ hrun, hforgotten, row, hlacking⟩
  exact hlast.2

/-- A site at rest: nothing was sent to the API but what was answered, and no page has a run. -/
theorem forgotten_of_rest {R : Api.Runtime} {x : Site} (hexchanges : x.system.server.exchanges = [])
    (hcalls : x.system.server.flow.calls = []) (hpages : ∀ p ∈ x.pages, p.task = none)
    (id name hash : String) : Forgotten R x id name hash := by
  refine ⟨⟨fun i e he => ?_, fun k p hp => ?_⟩, fun k p t hp ht => ?_⟩
  · rw [Api.Server.exchange?, hexchanges] at he
    cases he
  · rw [Api.Workflow.State.call?, hcalls] at hp
    cases hp
  · rw [hpages p (List.mem_iff_getElem?.mpr ⟨k, hp⟩)] at ht
    cases ht

/-- The renter's tab is closed before the report arrives. -/
def lostRun : List SiteAction := formRun ++ [.page 0 .fails]

/-- The renter looks at the booking, and the visit time passes. -/
def laterRun : List SiteAction :=
  [.page 0 (.load "3b241101-e2bb-4255-8caf-4136c566a962"), .others (.chain (.close 1893492000 9))]

theorem unreported_stays_unreported_funding : ∃ (x y : Site) (row : BookingRow),
    (siteMachine sampleSetup openSdk).exec sampleSite lostRun = some x ∧
    (siteMachine sampleSetup openSdk).exec x laterRun = some y ∧
    y.system.db.bookings.lookup "3b241101-e2bb-4255-8caf-4136c566a962" = some row ∧
    .funded ∉ path row.status := by
  obtain ⟨x, y, row, hrun, hrest, hrow, hstatus, hid, hexchanges, hcalls, hpages, hlog⟩ :
      ∃ (x y : Site) (row : BookingRow),
      (siteMachine sampleSetup openSdk).exec sampleSite lostRun = some x ∧
      (siteMachine sampleSetup openSdk).exec x laterRun = some y ∧
      x.system.db.bookings.lookup "3b241101-e2bb-4255-8caf-4136c566a962" = some row ∧
      row.status = .pendingFunding ∧ row.onChainBookingId = idText 4261549847195894357 ∧
      x.system.server.exchanges = [] ∧ x.system.server.flow.calls = [] ∧
      (∀ p ∈ x.pages, p.task = none) ∧
      (⟨"2514e1475addffb378fdb07e9a1092176c09dbfbd129ebcaacd0099818d2534c", 7,
        .bookingFunded 4261549847195894357 1000000⟩ : LoggedEvent) ∈ x.system.log :=
    ⟨_, _, _, rfl, rfl, rfl, rfl, by decide +kernel, rfl, rfl, by decide +kernel,
      .tail _ (.head _)⟩
  obtain ⟨-, row', hlacking⟩ := unreported_stays_unreported sampleSetup openSdk sampleSite x y
    lostRun laterRun ⟨fresh_sampleStart, rfl, rfl⟩ hrun "3b241101-e2bb-4255-8caf-4136c566a962"
    "booking_funded" "2514e1475addffb378fdb07e9a1092176c09dbfbd129ebcaacd0099818d2534c" .funded row
    ⟨hrow, rfl, ⟨_, hlog, rfl, hid.symm, rfl⟩, by rw [hstatus]; decide⟩
    (forgotten_of_rest hexchanges hcalls hpages _ _ _) hrest (by
      intro act hact
      simp only [laterRun, List.mem_cons, List.not_mem_nil, or_false] at hact
      rcases hact with rfl | rfl <;> exact fun htells => htells)
  exact ⟨x, y, row', hrun, hrest, hlacking.stored, hlacking.lacks⟩

/-! ## A deposit that went in unreported -/

/-- Only the pages act: nobody else sends requests to the API, and what is applied on chain is
    what the pages have had signed. -/
def Site.Alone (x : Site) : SiteAction → Prop
  | .others (.chain (.transaction hash _ _)) => ∃ e ∈ x.signed, e.1 = hash
  | .others (.api a) => a.sender = none
  | _ => True

/-- The pages have had deposits settled only for rows that were past their funding, and no two
    rows have one on-chain id. -/
structure Settling (S : Setup) (x : Site) : Prop where
  distinct : ∀ id id' row row', x.system.db.bookings.lookup id = some row →
    x.system.db.bookings.lookup id' = some row' → row.onChainBookingId = row'.onChainBookingId →
    id = id'
  signed : ∀ e ∈ x.signed, ∀ name n, published e.2.2 = some (name, n) →
    name = "deposit_refunded" ∨ name = "visit_confirmed" →
    ∃ b, Answered S x.system b ∧ b.onChainBookingId = idText n ∧ .funded ∈ path b.state

theorem settling_of_fresh {S : Setup} {sdk : Sdk} {x : Site}
    (h : (siteMachine S sdk).init x) : Settling S x := by
  obtain ⟨hsystem, -, hsigned⟩ := h
  refine ⟨fun id id' row row' hrow => ?_, by simp [hsigned]⟩
  rw [lookup_of_fresh hsystem] at hrow
  cases hrow

theorem distinct_of_step {S : Setup} {s s' : State} {a : Action} (h : Backed S s)
    (hdistinct : ∀ id id' row row', s.db.bookings.lookup id = some row →
      s.db.bookings.lookup id' = some row' → row.onChainBookingId = row'.onChainBookingId → id = id')
    (hstep : Joint.step S s a = some s') {id₁ id₂ : String} {row₁ row₂ : BookingRow}
    (hrow₁ : s'.db.bookings.lookup id₁ = some row₁) (hrow₂ : s'.db.bookings.lookup id₂ = some row₂)
    (hsame : row₁.onChainBookingId = row₂.onChainBookingId) : id₁ = id₂ := by
  cases a with
  | chain a =>
    obtain ⟨chain, -, rfl⟩ := Option.map_eq_some_iff.mp hstep
    exact hdistinct id₁ id₂ row₁ row₂ hrow₁ hrow₂ hsame
  | api a =>
    simp only [Joint.step, Option.ite_none_right_eq_some, Option.map_eq_some_iff] at hstep
    obtain ⟨-, server, hserver, rfl⟩ := hstep
    have hkeyed := (Api.coherent_of_step h.paid.coherent hserver).keyed
    rcases Api.row_of_step h.paid.coherent hserver hrow₁ with ⟨x₁, hx₁, hterms₁⟩ |
      ⟨_, _, uuid₁, _, _, ha₁, -, -, hnew₁⟩
    · rcases Api.row_of_step h.paid.coherent hserver hrow₂ with ⟨x₂, hx₂, hterms₂⟩ |
        ⟨_, _, _, _, _, -, -, -, hnew₂⟩
      · exact hdistinct id₁ id₂ x₁ x₂ hx₁ hx₂
          (hterms₁.onChainBookingId.symm.trans (hsame.trans hterms₂.onChainBookingId))
      · exact absurd (hterms₁.onChainBookingId.symm.trans hsame)
          (hnew₂.unique x₁ (Api.mem_rows.mpr ⟨id₁, hx₁⟩))
    · rcases Api.row_of_step h.paid.coherent hserver hrow₂ with ⟨x₂, hx₂, hterms₂⟩ |
        ⟨_, _, uuid₂, _, _, ha₂, -, -, hnew₂⟩
      · exact absurd (hterms₂.onChainBookingId.symm.trans hsame.symm)
          (hnew₁.unique x₂ (Api.mem_rows.mpr ⟨id₂, hx₂⟩))
      · rw [ha₁] at ha₂
        cases ha₂
        rw [← hkeyed id₁ row₁ hrow₁, ← hkeyed id₂ row₂ hrow₂, hnew₁.id, hnew₂.id]

/-- A call that settles a deposit was signed for a row past its funding. -/
theorem funded_of_signing {t : Task} {call : Contract.Call} {rest : List Contract.Call}
    {report : Report} (hleads : Leads t.booking.onChainBookingId report (call :: rest))
    (hby : report.By t.booking t.wallet) {name : String} {n : UInt64}
    (hname : published call = some (name, n))
    (hsettles : name = "deposit_refunded" ∨ name = "visit_confirmed") :
    t.booking.onChainBookingId = idText n ∧ .funded ∈ path t.booking.state := by
  rcases leads_head hleads with ⟨m, hm, hid⟩ | ⟨m, hm, hid⟩
  · rw [hname, Option.some.injEq, Prod.mk.injEq] at hm
    rcases hsettles with rfl | rfl <;> exact absurd hm.1 (by decide)
  · rw [hname, Option.some.injEq, Prod.mk.injEq] at hm
    obtain ⟨rfl, rfl⟩ := hm
    refine ⟨hid.symm, ?_⟩
    cases report with
    | fund => rcases hsettles with h | h <;> exact absurd h (by decide)
    | cancel =>
      rw [hby.2]
      decide
    | confirm =>
      rw [hby.2]
      decide

theorem settling_step {S : Setup} {sdk : Sdk} {x x' : Site} {act : SiteAction}
    (hsound : x.Sound S) (h : Settling S x) (hstep : x.step S sdk act = some x') :
    Settling S x' := by
  have hmoved : ∀ a s, Joint.step S x.system a = some s →
      Settling S { x with system := s } := by
    intro a s hs
    refine ⟨fun id id' row row' hrow hrow' hsame =>
      distinct_of_step hsound.backed h.distinct hs hrow hrow' hsame,
      fun e he name n hname hsettles => ?_⟩
    obtain ⟨b, hb, hrest⟩ := h.signed e he name n hname hsettles
    exact ⟨b, (recalled_of_step hsound.recalled hs).2 b hb, hrest⟩
  rcases site_step_cases hstep with ⟨a, s, -, -, hs, rfl⟩ | ⟨-, rfl⟩ |
    ⟨k, a, p, move, p', s, -, hp, hreact, hs, rfl⟩
  · exact hmoved a s hs
  · exact ⟨h.distinct, h.signed⟩
  · have hsystem : Settling S { x with system := s } := by
      cases move with
      | none =>
        cases hs
        exact h
      | some a => exact hmoved a s hs
    refine ⟨hsystem.distinct, fun e he name n hname hsettles => ?_⟩
    rcases List.mem_append.mp he with hold | hsigned
    · exact hsystem.signed e hold name n hname hsettles
    · -- a transaction that the page has just sent
      cases reacts_of_react hreact with
      | sent hash t call rest report ht hstage hhash hnew =>
        cases hs
        obtain ⟨hanswered, hstaged⟩ := hsound.tasks k p t hp ht
        rw [hstage] at hstaged
        rw [signs_sent ht hstage] at hsigned
        obtain rfl := List.mem_singleton.mp hsigned
        exact ⟨t.booking, hanswered, funded_of_signing hstaged.1 hstaged.2 hname hsettles⟩
      | _ => cases hsigned

theorem log_of_api {S : Setup} {s s' : State} {a : Api.Action}
    (hstep : Joint.step S s (.api a) = some s') : s'.log = s.log := by
  simp only [Joint.step, Option.ite_none_right_eq_some, Option.map_eq_some_iff] at hstep
  obtain ⟨-, server, -, rfl⟩ := hstep
  rfl

/-- With the pages alone, the events of a step are those of the calls they have had signed. -/
theorem log_of_alone {S : Setup} {sdk : Sdk} {x x' : Site} {act : SiteAction}
    (hsound : x.Sound S) (hstep : x.step S sdk act = some x') (halone : x.Alone act) :
    x'.system.log = x.system.log ∨ ∃ e ∈ x.signed, ∃ ledger event,
      published e.2.2 = some (eventName event, event.bookingId) ∧
        x'.system.log = x.system.log ++ [⟨e.1, ledger, event⟩] := by
  rcases site_step_cases hstep with ⟨a, s, rfl, hadmits, hs, rfl⟩ | ⟨-, rfl⟩ |
    ⟨k, a, p, move, p', s, -, hp, hreact, hs, rfl⟩
  · cases a with
    | api a => exact .inl (log_of_api hs)
    | chain a =>
      obtain ⟨chain, hchain, rfl⟩ := Option.map_eq_some_iff.mp hs
      cases a with
      | close timestamp sequence =>
        obtain ⟨l, hl, rfl⟩ := Option.map_eq_some_iff.mp hchain
        simp only [Contract.ledgerStep, Option.ite_none_right_eq_some, Option.some.injEq] at hl
        obtain ⟨-, rfl⟩ := hl
        exact .inl rfl
      | tokens balances =>
        cases hchain
        exact .inl rfl
      | transaction hash successful calls =>
        obtain ⟨e, he, rfl⟩ := halone
        have hcarries : x.system.carries S e.1 successful calls e.2.1 e.2.2 = true := by
          have hall := List.all_eq_true.mp hadmits e he
          simpa using hall
        rcases log_of_carries hsound.backed.logged hcarries hchain with ⟨-, hsame⟩ |
          ⟨event, hevent, hnew⟩
        · exact .inl hsame
        · exact .inr ⟨e, he, _, event, hevent, hnew⟩
  · exact .inl rfl
  · cases move with
    | none =>
      cases hs
      exact .inl rfl
    | some move =>
      obtain ⟨request, rfl⟩ := move_of_reacts (reacts_of_react hreact)
      exact .inl (log_of_api hs)

/-- A deposit in the escrow, with a row that awaits its funding and a hash that is lost. -/
structure Stranded (S : Setup) (x : Site) (id : String) (n : UInt64) (hash : String) : Prop where
  sound : x.Sound S
  settling : Settling S x
  forgotten : Forgotten S.config.runtime x id "booking_funded" hash
  lacking : ∃ row, Lacking x.system id "booking_funded" hash .funded row
  held : depositOf n x.system.log = some .held

/-- Out of the escrow there are two ways, and the pages take neither. -/
theorem Stranded.held_step {S : Setup} {sdk : Sdk} {x x' : Site} {act : SiteAction}
    {id : String} {n : UInt64} {hash : String} (h : Stranded S x id n hash)
    (hid : Api.onChainBookingId id = some (idText n)) (hstep : x.step S sdk act = some x')
    (hsound' : x'.Sound S) (halone : x.Alone act) : depositOf n x'.system.log = some .held := by
  rcases log_of_alone h.sound hstep halone with hsame | ⟨e, he, ledger, event, hevent, hnew⟩
  · rw [hsame]
    exact h.held
  · by_cases hbooking : event.bookingId = n
    · exfalso
      subst hbooking
      -- the log after the step tells of some deposit
      obtain ⟨deposit, htells⟩ := hsound'.backed.logged.tells event.bookingId
      have hlog := htells.log
      change depositOf event.bookingId x'.system.log = some deposit at hlog
      have hheld := h.held
      rw [hnew] at hlog
      unfold depositOf at hlog hheld
      rw [Contract.eventsOf_concat, if_pos rfl, List.map_append, depositMachine.exec_append, hheld]
        at hlog
      have hsettles : eventName event = "deposit_refunded" ∨ eventName event = "visit_confirmed" := by
        cases event with
        | bookingCreated => cases hlog
        | bookingFunded => cases hlog
        | depositRefunded => exact .inl rfl
        | visitConfirmed => exact .inr rfl
      obtain ⟨b, hb, honChain, hfunded⟩ := h.settling.signed e he _ _ hevent hsettles
      obtain ⟨row, hlacking⟩ := h.lacking
      obtain ⟨row', hrow', -, honChain', -, -, hpath⟩ := hb.row
      have hrowId : row.onChainBookingId = idText event.bookingId :=
        Option.some.inj ((h.sound.labelled id row hlacking.stored).symm.trans hid)
      obtain rfl := h.settling.distinct _ _ _ _ hrow' hlacking.stored
        (honChain'.trans (honChain.trans hrowId.symm))
      obtain rfl : row = row' := Option.some.inj (hlacking.stored.symm.trans hrow')
      exact hlacking.lacks (hpath.subset hfunded)
    · have hsame : eventsOf n x'.system.log = eventsOf n x.system.log := by
        rw [hnew, Contract.eventsOf_concat, if_neg hbooking, List.append_nil]
      rw [depositOf, hsame]
      exact h.held

/-- **A deposit whose funding goes unreported is stranded.** In any run of the site, take a
    moment `x` at which the deposit of a row is in the escrow while the row awaits its funding,
    and nobody has the hash of the funding at hand. As long as only the pages act, the row
    awaits its funding and the deposit stays in the escrow. -/
theorem deposit_stranded (S : Setup) (sdk : Sdk) (x₀ x y : Site)
    (as bs : List SiteAction) (h₀ : (siteMachine S sdk).init x₀)
    (hrun : (siteMachine S sdk).exec x₀ as = some x) (id : String) (row : BookingRow)
    (hrow : x.system.db.bookings.lookup id = some row) (hstatus : row.status = .pendingFunding)
    (n : UInt64) (hid : row.onChainBookingId = idText n) (b : Contract.Booking)
    (hb : x.system.chain.ledger.escrow.booking? n = some b) (hfunded : b.state = .funded)
    (hlost : ∀ hash, Shown x.system.log "booking_funded" row.onChainBookingId hash →
      Forgotten S.config.runtime x id "booking_funded" hash)
    (hrest : (siteMachine S sdk).exec x bs = some y)
    (halone : (siteMachine S sdk).Along Site.Alone x bs) :
    (∃ row', y.system.db.bookings.lookup id = some row' ∧ row'.status = .pendingFunding) ∧
    ∃ b', y.system.chain.ledger.escrow.booking? n = some b' ∧ b'.state = .funded := by
  have hsound := sound_of_exec h₀ hrun
  have hlabel : Api.onChainBookingId id = some (idText n) := by rw [hsound.labelled id row hrow, hid]
  have hsettling : x.Sound S ∧ Settling S x := (siteMachine S sdk).exec_invariant
    (I := fun z => z.Sound S ∧ Settling S z)
    (fun z act z' hz hstep =>
      ⟨sound_step z act z' hz.1 hstep, settling_step hz.1 hz.2 hstep⟩) hrun
    ⟨sound_of_fresh h₀, settling_of_fresh h₀⟩
  -- the events about the booking say that its deposit is held
  obtain ⟨deposit, htells⟩ := hsound.backed.logged.tells n
  have hstate := htells.state
  rw [hb, Option.map_some, hfunded] at hstate
  obtain rfl : deposit = .held := by
    cases deposit <;> first | rfl | cases hstate
  obtain ⟨hash, hshown⟩ := (event_shown hsound.labelled hlabel hrow).mp (htells.funded.mpr rfl)
  have hstart : Stranded S x id n hash :=
    ⟨hsound, hsettling.2, hlost hash hshown,
      ⟨row, hrow, rfl, hshown, by rw [hstatus]; decide⟩, htells.log⟩
  have hend : Stranded S y id n hash := (siteMachine S sdk).exec_invariant_along
    (I := fun z => Stranded S z id n hash) (P := Site.Alone)
    (fun z act z' hz hact hstep => by
      obtain ⟨row, hlacking⟩ := hz.lacking
      have hquiet : ¬ act.Tells S.config.runtime id "booking_funded" hash := by
        intro htells
        cases act with
        | others a =>
          cases a with
          | chain a => exact htells
          | api a => cases a <;> first | exact htells | cases hact
        | mount => exact htells
        | page k a => exact htells
      have hsound' := sound_step z act z' hz.sound hstep
      obtain ⟨hforgotten, hlacking'⟩ := hz.forgotten.step hz.sound hlacking hstep hquiet
      exact ⟨hsound', settling_step hz.sound hz.settling hstep, hforgotten, hlacking',
        hz.held_step hlabel hstep hsound' hact⟩) hrest halone hstart
  constructor
  · obtain ⟨row', hlacking⟩ := hend.lacking
    refine ⟨row', hlacking.stored, ?_⟩
    -- every other status of the lifecycle is past the funding
    have hlifecycle := hend.sound.backed.paid.coherent.lifecycle id row' hlacking.stored
    have hlacks := hlacking.lacks
    generalize row'.status = status at hlifecycle hlacks
    revert hlifecycle hlacks
    cases status <;> decide
  · obtain ⟨deposit, htells⟩ := hend.sound.backed.logged.tells n
    obtain rfl : deposit = .held := Option.some.inj (htells.log.symm.trans hend.held)
    obtain ⟨b', hb', hstate⟩ := Option.map_eq_some_iff.mp htells.state
    exact ⟨b', hb', hstate⟩

theorem deposit_stranded_sample : ∃ (x y : Site) (row : BookingRow) (b : Contract.Booking),
    (siteMachine sampleSetup openSdk).exec sampleSite lostRun = some x ∧
    (siteMachine sampleSetup openSdk).exec x laterRun = some y ∧
    y.system.db.bookings.lookup "3b241101-e2bb-4255-8caf-4136c566a962" = some row ∧
    row.status = .pendingFunding ∧
    y.system.chain.ledger.escrow.booking? 4261549847195894357 = some b ∧ b.state = .funded := by
  obtain ⟨x, y, row, b, hrun, hrest, hrow, hstatus, hid, hb, hfunded, hexchanges, hcalls, hpages⟩ :
      ∃ (x y : Site) (row : BookingRow) (b : Contract.Booking),
      (siteMachine sampleSetup openSdk).exec sampleSite lostRun = some x ∧
      (siteMachine sampleSetup openSdk).exec x laterRun = some y ∧
      x.system.db.bookings.lookup "3b241101-e2bb-4255-8caf-4136c566a962" = some row ∧
      row.status = .pendingFunding ∧ row.onChainBookingId = idText 4261549847195894357 ∧
      x.system.chain.ledger.escrow.booking? 4261549847195894357 = some b ∧ b.state = .funded ∧
      x.system.server.exchanges = [] ∧ x.system.server.flow.calls = [] ∧
      (∀ p ∈ x.pages, p.task = none) :=
    ⟨_, _, _, _, rfl, rfl, rfl, rfl, by decide +kernel, rfl, rfl, rfl, rfl, by decide +kernel⟩
  obtain ⟨⟨row', hrow', hstatus'⟩, b', hb', hfunded'⟩ := deposit_stranded sampleSetup openSdk
    sampleSite x y lostRun laterRun ⟨fresh_sampleStart, rfl, rfl⟩ hrun
    "3b241101-e2bb-4255-8caf-4136c566a962" row hrow hstatus 4261549847195894357 hid b hb hfunded
    (fun _ _ => forgotten_of_rest hexchanges hcalls hpages _ _ _) hrest
    ⟨trivial, fun _ _ => ⟨trivial, fun _ _ => trivial⟩⟩
  exact ⟨x, y, row', b', hrun, hrest, hrow', hstatus', hb', hfunded'⟩

end PovDeposit.Joint
