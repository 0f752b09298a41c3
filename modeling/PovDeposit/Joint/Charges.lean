/-
  What a renter is charged who signs nothing but what the pages ask for.

  The form has its wallet sign a booking with the terms of the row that the API has just stored
  (`Justified`). A wallet that signs nothing else (`Careful`) is the renter of no other booking on
  chain, whoever else acts and in whatever order, and no other deposit is taken from it. So
  where a row and the chain disagree (see `Agreed`), the money is somebody else's.
-/
import PovDeposit.Contract.Accounts
import PovDeposit.Joint.DeadEnds
import PovDeposit.Joint.Reports

namespace PovDeposit.Joint

open PovDeposit.Lib
open PovDeposit.Contract (Accounted Address Booking Chronicled Ledger ledgerMachine ledgerStep)
open PovDeposit.Api (BookingRow CreateInput Db Request onChainBookingId)

/-! ## Bookings with the terms of a row -/

/-- A row has the id and the terms of booking `n`. -/
def Matches (db : Db) (n : UInt64) (b : Booking) : Prop :=
  ∃ id row, db.bookings.lookup id = some row ∧ idText n = row.onChainBookingId ∧
    agreesWithRow b row = true

/-- If the call creates a booking, it is one with the terms of a row. -/
def Justified (db : Db) (call : Contract.Call) : Prop :=
  ∀ n renter host amount visitTime, call = .createBooking n renter host amount visitTime →
    Matches db n ⟨n, renter, host, amount, visitTime, .created⟩

theorem Matches.of_sameTerms {db : Db} {n : UInt64} {b b' : Booking} (h : Matches db n b)
    (hterms : b.SameTerms b') : Matches db n b' := by
  obtain ⟨id, row, hrow, hid, hagrees⟩ := h
  exact ⟨id, row, hrow, hid, agrees_of_sameTerms hterms hagrees⟩

theorem Matches.keep {s t : State} {n : UInt64} {b : Booking} (h : Matches s.db n b)
    (hkeeps : Keeps s t) : Matches t.db n b := by
  obtain ⟨id, row, hrow, hid, hagrees⟩ := h
  obtain ⟨row', hrow', hterms, -⟩ := hkeeps.rows id row hrow
  refine ⟨id, row', hrow', hid.trans hterms.onChainBookingId.symm, ?_⟩
  rw [agreesWithRow_of_sameTerms hterms]
  exact hagrees

theorem Justified.keep {s t : State} {call : Contract.Call} (h : Justified s.db call)
    (hkeeps : Keeps s t) : Justified t.db call :=
  fun n renter host amount visitTime hcall => (h n renter host amount visitTime hcall).keep hkeeps

/-- The call of the form has the terms of the row that was stored for it. -/
theorem justified_of_formCall {R : Api.Runtime} {sdk : Sdk} {network : String}
    {db db' : Db} {now : Int} {uuid : String} {body : CreateInput}
    {input : Api.Workflow.CreateBooking} {b : Api.Workflow.Booking} {call : Contract.Call}
    (hparse : body.parse R = some input)
    (hcreate : Api.Workflow.create R network db now uuid input = .ok (db', b))
    (hcall : formCall R sdk body b.onChainBookingId = some call) : Justified db' call := by
  obtain ⟨row, hrow⟩ := Api.Workflow.created_of_create hcreate
  obtain ⟨-, hbounds, honChain⟩ := create_answer hcreate
  simp only [CreateInput.parse, Option.ite_none_right_eq_some, Option.some.injEq, Bool.and_eq_true]
    at hparse
  obtain ⟨⟨⟨⟨-, hamount⟩, -⟩, -⟩, rfl⟩ := hparse
  have hposted : 0 < Api.readAmount body.depositAmount ∧
      Api.readAmount body.depositAmount ≤ 100000000000 := hbounds
  obtain ⟨n, hn, hid⟩ := onChainBookingId_lt honChain
  rw [hid, formCall_eq_some hn hamount (by omega)] at hcall
  obtain ⟨-, -, t, ht, hpos, rfl⟩ := hcall
  have hlt := seconds_lt ht
  obtain rfl : t = row.visitTime := Option.some.inj (ht.symm.trans hrow.visitTime)
  intro m renter host amount visitTime heq
  cases heq
  have htext : idText (UInt64.ofNat n) = row.onChainBookingId := by
    have hsame : some b.onChainBookingId = some row.onChainBookingId :=
      honChain.symm.trans hrow.onChain
    rw [idText, UInt64.toNat_ofNat_of_lt' hn, ← hid]
    exact Option.some.inj hsame
  refine ⟨row.id, row, by rw [hrow.bookings, AList.lookup_insert], htext, ?_⟩
  have htoNat : ∀ k, k < 2 ^ 64 → (UInt64.ofNat k).toNat = k :=
    fun k hk => UInt64.toNat_ofNat_of_lt' hk
  have hseconds := htoNat (row.visitTime / 1000).toNat (by omega)
  simp only [agreesWithRow, agrees, hrow.renter, hrow.host, hrow.depositAmount, hseconds,
    decide_true, Bool.true_and, Bool.and_self, decide_eq_true_eq]
  omega

/-! ## What the pages have signed -/

/-- The calls that a run has still to have signed, or has just had signed. -/
def Stage.calls : Stage → List Contract.Call
  | .signing call rest _ | .polling call rest _ _ _ => call :: rest
  | _ => []

/-- The pages ask for no booking but those of rows. -/
structure Site.Fair (x : Site) : Prop where
  tasks : ∀ p ∈ x.pages, ∀ t ∈ p.task, ∀ call ∈ t.stage.calls, Justified x.system.db call
  signed : ∀ e ∈ x.signed, Justified x.system.db e.2.2

section Pages

variable {S : Setup} {sdk : Sdk} {x : Site}

theorem justified_of_method {db : Db} {id : String} {wallet : Address} {method : EscrowMethod}
    {call : Contract.Call} (h : escrowCall sdk method wallet id = some call) :
    Justified db call := by
  simp only [escrowCall, Option.bind_eq_bind, Option.bind_eq_some_iff] at h
  obtain ⟨account, -, n, -, h⟩ := h
  intro m renter host amount visitTime heq
  subst heq
  split at h
  · cases method <;> cases h
  · cases h

/-- The calls of a run that a button begins create nothing. -/
theorem justified_of_begin {db : Db} {b : Api.Workflow.Booking} {wallet : Address} {code : String}
    {action : BookingAction} {stage : Stage} (h : action.begin sdk b wallet code = some stage) :
    ∀ call ∈ stage.calls, Justified db call := by
  intro call hcall
  cases action with
  | issueChallenge =>
    cases h
    cases hcall
  | checkIn =>
    simp only [BookingAction.begin] at h
    split at h
    · cases h
    · cases h
      cases hcall
  | confirm =>
    obtain ⟨c, hc, rfl⟩ := Option.map_eq_some_iff.mp h
    obtain rfl := List.mem_singleton.mp hcall
    exact justified_of_method hc
  | cancel =>
    obtain ⟨c, hc, rfl⟩ := Option.map_eq_some_iff.mp h
    obtain rfl := List.mem_singleton.mp hcall
    exact justified_of_method hc

/-- What a poll leaves to be signed was to be signed before. -/
theorem calls_polled {t : Task} {call : Contract.Call} {rest : List Contract.Call}
    {report : Report} {hash : String} {left : Nat} {status : TransactionStatus} {stage : Stage}
    (h : t.polled call rest report hash left status = some stage) :
    stage.calls ⊆ call :: rest := by
  cases status with
  | success =>
    cases rest with
    | nil =>
      cases h
      exact List.nil_subset _
    | cons next rest =>
      cases h
      exact List.subset_cons_self _ _
  | failed => cases h
  | notFound =>
    simp only [Task.polled] at h
    split at h
    · cases h
    · cases h
      exact List.Subset.refl _

theorem fair_of_fresh (h : (siteMachine S sdk).init x) : x.Fair := by
  obtain ⟨-, hpages, hsigned⟩ := h
  refine ⟨?_, ?_⟩
  · simp [hpages]
  · simp [hsigned]

theorem Site.Fair.moved {s : State} (h : x.Fair) (hkeeps : Keeps x.system s) :
    ({ x with system := s } : Site).Fair :=
  ⟨fun p hp t ht call hcall => (h.tasks p hp t ht call hcall).keep hkeeps,
    fun e he => (h.signed e he).keep hkeeps⟩

theorem Site.Fair.turned (h : x.Fair) (k : Nat) (p' : Page)
    {new : List (String × Address × Contract.Call)}
    (hnew : ∀ e ∈ new, Justified x.system.db e.2.2)
    (htask : ∀ t ∈ p'.task, ∀ call ∈ t.stage.calls, Justified x.system.db call) :
    (⟨x.system, x.pages.set k p', x.signed ++ new⟩ : Site).Fair := by
  refine ⟨fun q hq => ?_, fun e he => ?_⟩
  · rcases List.mem_or_eq_of_mem_set hq with hq | rfl
    · exact h.tasks q hq
    · exact htask
  · rcases List.mem_append.mp he with he | he
    · exact h.signed e he
    · exact hnew e he

theorem fair_step (x : Site) (act : SiteAction) (x' : Site) (hsound : x.Sound S) (h : x.Fair)
    (hstep : x.step S sdk act = some x') : x'.Fair := by
  rcases site_step_cases hstep with ⟨a, s, -, -, hs, rfl⟩ | ⟨-, rfl⟩ |
    ⟨k, a, p, move, p', s, -, hp, hreact, hs, rfl⟩
  · exact h.moved (keeps_step _ _ _ hsound.backed hs)
  · refine ⟨fun p hp => ?_, h.signed⟩
    rcases List.mem_append.mp hp with hp | hp
    · exact h.tasks p hp
    · obtain rfl := List.mem_singleton.mp hp
      exact fun t ht => by cases ht
  · have hreacts := reacts_of_react hreact
    have hmoved : ({ x with system := s } : Site).Fair := by
      cases move with
      | none =>
        cases hs
        exact h
      | some a => exact h.moved (keeps_step _ _ _ hsound.backed hs)
    have htask := hmoved.tasks p (List.mem_of_getElem? hp)
    cases hreacts with
    | render wallet => exact hmoved.turned k _ (by simp [Page.signs]) htask
    | enter code => exact hmoved.turned k _ (by simp [Page.signs]) htask
    | load reference hnone => exact hmoved.turned k _ (by simp [Page.signs]) htask
    | click action booking wallet hnone hb hwallet hoffered =>
      refine hmoved.turned k _ (by simp [Page.signs]) fun t ht => ?_
      obtain ⟨stage, hstage, rfl⟩ := Option.map_eq_some_iff.mp ht
      exact justified_of_begin hstage
    | submit now uuid body wallet hnone hwallet hrenter =>
      refine hmoved.turned k _ (by simp [Page.signs]) fun t ht => ?_
      obtain ⟨input, b, created, funded, hparse, hok, hcreated, hfunded, rfl⟩ := begun_of_step hs ht
      have hfirst := justified_of_formCall hparse hok hcreated
      have hsecond : Justified s.db funded := justified_of_method hfunded
      simp only [Stage.calls, List.mem_cons, List.not_mem_nil, or_false, forall_eq_or_imp, forall_eq]
      exact ⟨hfirst, hsecond⟩
    | sent hash t call rest report ht hstage hhash hnew =>
      have hcalls : ∀ c ∈ call :: rest, Justified s.db c := fun c hc =>
        htask t ht c (by rw [hstage]; exact hc)
      rw [signs_sent ht hstage]
      refine hmoved.turned k _ (fun e he => ?_) fun t' ht' => ?_
      · obtain rfl := List.mem_singleton.mp he
        exact hcalls call List.mem_cons_self
      · obtain rfl := Option.some.inj ht'
        exact hcalls
    | polled status t call rest report hash left ht hstage hanswer =>
      refine hmoved.turned k _ (by simp [Page.signs]) fun t' ht' c hc => ?_
      obtain ⟨stage, hnext, rfl⟩ := Option.map_eq_some_iff.mp ht'
      exact htask t ht c (by rw [hstage]; exact calls_polled hnext hc)
    | arrive t request ht hstage =>
      refine hmoved.turned k _ (by simp [Page.signs]) fun t' ht' => ?_
      obtain rfl := Option.some.inj ht'
      exact fun c hc => by cases hc
    | shown k' token hsome => exact hmoved.turned k _ (by simp [Page.signs]) (by simp)
    | done k' hsome => exact hmoved.turned k _ (by simp [Page.signs]) (by simp)
    | updated k' process booking hsome hprocess hreturned =>
      exact hmoved.turned k _ (by simp [Page.signs]) (by simp)
    | failed hsome => exact hmoved.turned k _ (by simp [Page.signs]) (by simp)

end Pages

/-! ## A careful wallet -/

/-- The wallet signs nothing but what a page has had it sign. -/
def Careful (wallet : Address) (x : Site) : SiteAction → Prop
  | .others (.chain (.transaction hash _ calls)) => ∀ c ∈ calls, wallet ∈ c.auths →
      ∃ e ∈ x.signed, e.1 = hash ∧ e.2.1 = wallet
  | _ => True

instance (wallet : Address) (x : Site) : (act : SiteAction) → Decidable (Careful wallet x act)
  | .others (.chain (.transaction hash _ calls)) =>
      inferInstanceAs (Decidable (∀ c ∈ calls, wallet ∈ c.auths →
        ∃ e ∈ x.signed, e.1 = hash ∧ e.2.1 = wallet))
  | .others (.chain (.close _ _)) | .others (.chain (.tokens _)) | .others (.api _) | .mount
  | .page _ _ => isTrue trivial

/-- The bookings in the name of the wallet are those of rows. -/
def InName (wallet : Address) (db : Db) (l : Ledger) : Prop :=
  ∀ n b, l.escrow.booking? n = some b → b.renter = wallet → Matches db n b

/-- A call brings the wallet no booking but one of a row. -/
def Harmless (wallet : Address) (db : Db) : Contract.Action → Prop
  | .invoke _ auths _ call => wallet ∈ auths → Justified db call
  | _ => True

section Calls

variable {d : Contract.Deployment} {wallet : Address} {db : Db} {l l' : Ledger}

theorem inName_ledgerStep {a : Contract.Action} (hc : Chronicled d.contract l)
    (h : InName wallet db l) (ha : Harmless wallet db a) (hstep : ledgerStep d l a = some l') :
    InName wallet db l' := by
  have hkeyed := (Contract.chronicled_step l a l' hc hstep).recorded.solvent.keyed
  intro n b' hb' hrenter
  rcases Contract.ledgerStep_cases hc.recorded.solvent.keyed hstep with ⟨_, _, -, -, -, rfl⟩ |
    ⟨_, -, rfl⟩ | ⟨hash, auths, acc, call, σ, rfl, -, -, heff, rfl⟩ | ⟨-, -, -, -, -, -, -, rfl⟩
  · exact h n b' hb' hrenter
  · exact h n b' hb' hrenter
  · rcases heff.origin hc.recorded.solvent.keyed hb' with ⟨b, hb, hterms, -⟩ |
      ⟨-, rfl, hstate, -, hauth⟩
    · exact (h n b hb (hterms.renter.symm.trans hrenter)).of_sameTerms hterms
    · have hmatches := ha (hrenter ▸ hauth) n b'.renter b'.host b'.depositAmount b'.visitTime rfl
      exact hmatches.of_sameTerms ⟨hkeyed.bookingId hb', rfl, rfl, rfl, rfl⟩
  · exact h n b' hb' hrenter

theorem inName_exec {cs : List Contract.Action} (hc : Chronicled d.contract l)
    (h : InName wallet db l) (hcs : ∀ a ∈ cs, Harmless wallet db a)
    (hrun : (ledgerMachine d).exec l cs = some l') : InName wallet db l' :=
  ((ledgerMachine d).exec_invariant_along
    (I := fun l => Chronicled d.contract l ∧ InName wallet db l)
    (fun l a l' h ha hstep =>
      ⟨Contract.chronicled_step l a l' h.1 hstep, inName_ledgerStep h.1 h.2 ha hstep⟩)
    hrun ((ledgerMachine d).along_of_forall l hcs) ⟨hc, h⟩).2

end Calls

section Runs

variable {S : Setup} {sdk : Sdk} {wallet : Address}

/-- The transactions of others bring a careful wallet nothing that it has not signed. -/
theorem harmless_of_careful {x : Site} (hfair : x.Fair) {a : ChainAction}
    (hadmits : x.admits S (.chain a) = true) (hcareful : Careful wallet x (.others (.chain a))) :
    ∀ c ∈ a.calls, Harmless wallet x.system.db c := by
  intro c hc
  cases a with
  | close timestamp sequence =>
    obtain rfl := List.mem_singleton.mp hc
    trivial
  | tokens balances =>
    obtain rfl := List.mem_singleton.mp hc
    trivial
  | transaction hash successful calls =>
    have hmem : c ∈ invocations hash calls := by
      simp only [ChainAction.calls] at hc
      split at hc
      · exact hc
      · cases hc
    obtain ⟨i, hi, rfl⟩ := List.mem_map.mp hmem
    intro hauth
    obtain ⟨e, he, hhash, hwallet⟩ := hcareful i hi hauth
    -- the transaction is the one call that the page has had signed
    have hcarries : x.system.carries S hash successful calls e.2.1 e.2.2 = true := by
      have hall := List.all_eq_true.mp hadmits e he
      rw [hhash] at hall
      simpa using hall
    unfold State.carries at hcarries
    split at hcarries
    · obtain rfl := List.mem_singleton.mp hi
      simp only [Bool.and_eq_true, decide_eq_true_eq] at hcarries
      rw [hcarries.1.2]
      exact hfair.signed e he
    · cases hcarries

theorem InName.api {s : State} {db : Db} (h : InName wallet db s.chain.ledger) {t : State}
    (hdb : ∀ n b, Matches db n b → Matches t.db n b) (hchain : t.chain = s.chain) :
    InName wallet t.db t.chain.ledger := by
  rw [hchain]
  exact fun n b hb hrenter => hdb n b (h n b hb hrenter)

/-- The bookings on chain in the name of a careful wallet are those of rows. -/
theorem inName_step {x x' : Site} {act : SiteAction} (hsound : x.Sound S) (hfair : x.Fair)
    (h : InName wallet x.system.db x.system.chain.ledger) (hcareful : Careful wallet x act)
    (hstep : x.step S sdk act = some x') :
    InName wallet x'.system.db x'.system.chain.ledger := by
  have hkept : ∀ {s : State}, Keeps x.system s → s.chain = x.system.chain →
      InName wallet s.db s.chain.ledger := fun hkeeps hchain =>
    h.api (fun n b hmatches => hmatches.keep hkeeps) hchain
  have hapi : ∀ {a : Api.Action} {s : State}, Joint.step S x.system (.api a) = some s →
      InName wallet s.db s.chain.ledger := by
    intro a s hs
    refine hkept (keeps_step _ _ _ hsound.backed hs) ?_
    simp only [Joint.step, Option.ite_none_right_eq_some, Option.map_eq_some_iff] at hs
    obtain ⟨-, server, -, rfl⟩ := hs
    rfl
  rcases site_step_cases hstep with ⟨a, s, rfl, hadmits, hs, rfl⟩ | ⟨-, rfl⟩ |
    ⟨k, a, p, move, p', s, -, hp, hreact, hs, rfl⟩
  · cases a with
    | chain a =>
      obtain ⟨chain, hchain, rfl⟩ := Option.map_eq_some_iff.mp hs
      exact inName_exec hsound.backed.logged.chronicled h
        (harmless_of_careful hfair hadmits hcareful) (ledger_of_step hchain)
    | api a => exact hapi hs
  · exact h
  · cases move with
    | none =>
      cases hs
      exact h
    | some a =>
      obtain ⟨request, rfl⟩ := move_of_reacts (reacts_of_react hreact)
      exact hapi hs

theorem accounted_site {x x' : Site} {act : SiteAction}
    (h : Accounted S.deployment.contract x.system.chain.ledger.escrow)
    (hstep : x.step S sdk act = some x') :
    Accounted S.deployment.contract x'.system.chain.ledger.escrow := by
  have hsystem : ∀ {a : Action} {s : State}, Joint.step S x.system a = some s →
      Accounted S.deployment.contract s.chain.ledger.escrow := by
    intro a s hs
    cases a with
    | chain a =>
      obtain ⟨chain, hchain, rfl⟩ := Option.map_eq_some_iff.mp hs
      exact (ledgerMachine S.deployment).exec_invariant
        (I := fun l => Accounted S.deployment.contract l.escrow) Contract.accounted_step
        (ledger_of_step hchain) h
    | api a =>
      simp only [Joint.step, Option.ite_none_right_eq_some, Option.map_eq_some_iff] at hs
      obtain ⟨-, server, -, rfl⟩ := hs
      exact h
  rcases site_step_cases hstep with ⟨a, s, -, -, hs, rfl⟩ | ⟨-, rfl⟩ |
    ⟨k, a, p, move, p', s, -, -, -, hs, rfl⟩
  · exact hsystem hs
  · exact h
  · cases move with
    | none =>
      cases hs
      exact h
    | some a => exact hsystem hs

end Runs

/-- **A careful renter pays for rows only.** After any run of the site in which a wallet signs
    nothing but what the pages have it sign, whatever everybody else does: every booking on chain
    in the wallet's name has the id, the parties, the amount and the visit time of a stored row;
    and every token movement of the escrow out of the wallet is the deposit of such a row, to
    the escrow. -/
theorem careful_renters_charged (S : Setup) (sdk : Sdk) (x₀ x : Site)
    (as : List SiteAction) (h₀ : (siteMachine S sdk).init x₀)
    (hrun : (siteMachine S sdk).exec x₀ as = some x) (wallet : Address)
    (hwallet : wallet ≠ S.deployment.contract)
    (hcareful : (siteMachine S sdk).Along (Careful wallet) x₀ as) :
    (∀ n b, x.system.chain.ledger.escrow.booking? n = some b → b.renter = wallet →
      ∃ id row, x.system.db.bookings.lookup id = some row ∧ idText n = row.onChainBookingId ∧
        agreesWithRow b row = true) ∧
    (∀ t ∈ x.system.chain.ledger.escrow.transfers, t.sender = wallet →
      t.receiver = S.deployment.contract ∧ ∃ id row n b,
        x.system.db.bookings.lookup id = some row ∧ idText n = row.onChainBookingId ∧
        x.system.chain.ledger.escrow.booking? n = some b ∧ row.renter = wallet ∧
        t.amount = row.depositAmount) := by
  have hfresh : InName wallet x₀.system.db x₀.system.chain.ledger := by
    intro n b hb
    rw [Contract.Escrow.booking?, h₀.1.chain.ledger.bookings] at hb
    cases hb
  obtain ⟨hsound, hfair, hname, haccounted⟩ := (siteMachine S sdk).exec_invariant_along
    (I := fun x => x.Sound S ∧ x.Fair ∧ InName wallet x.system.db x.system.chain.ledger ∧
      Accounted S.deployment.contract x.system.chain.ledger.escrow)
    (fun x act x' h hcareful hstep => ⟨sound_step x act x' h.1 hstep,
      fair_step x act x' h.1 h.2.1 hstep, inName_step h.1 h.2.1 h.2.2.1 hcareful hstep,
      accounted_site h.2.2.2 hstep⟩)
    hrun hcareful ⟨sound_of_fresh h₀, fair_of_fresh h₀, hfresh,
      Contract.accounted_of_fresh h₀.1.chain.ledger⟩
  refine ⟨hname, fun t ht hsender => ?_⟩
  obtain ⟨n, b, a, -, hb, hends⟩ := haccounted.moves t ht
  rcases hends with rfl | rfl
  · obtain ⟨id, row, hrow, hid, hagrees⟩ := hname n b hb hsender
    obtain ⟨hrenter, -, hamount⟩ := terms_of_agrees hagrees
    exact ⟨rfl, id, row, n, b, hrow, hid, hb, hrenter.symm.trans hsender, hamount⟩
  · exact absurd hsender.symm hwallet

/-- The renter of `formRun` is charged for the row of the form. -/
theorem careful_renters_charged_form : ∃ (x : Site) (t : Contract.Transfer) (row : BookingRow),
    (siteMachine sampleSetup openSdk).exec sampleSite formRun = some x ∧
    t ∈ x.system.chain.ledger.escrow.transfers ∧ t.sender = "renter" ∧ t.amount = 1000000 ∧
    row.renter = "renter" ∧ t.amount = row.depositAmount := by
  obtain ⟨x, t, hrun, ht, hsender, hamount⟩ : ∃ x t,
      (siteMachine sampleSetup openSdk).exec sampleSite formRun = some x ∧
      t ∈ x.system.chain.ledger.escrow.transfers ∧ t.sender = "renter" ∧ t.amount = 1000000 :=
    ⟨_, _, rfl, List.mem_singleton_self _, rfl, rfl⟩
  obtain ⟨-, hcharged⟩ := careful_renters_charged sampleSetup openSdk sampleSite x formRun
    ⟨fresh_sampleStart, rfl, rfl⟩ hrun "renter" (by decide) (by decide +kernel)
  obtain ⟨-, id, row, n, b, -, -, -, hrenter, hrow⟩ := hcharged t ht hsender
  exact ⟨x, t, row, hrun, ht, hsender, hamount, hrenter, hrow⟩

end PovDeposit.Joint
