/-
  The contract's event log read as a money ledger.

  `eventBalance` adds up the amounts of the log: funding counts in, refunds and
  confirmations count out. An auditor, and the API's verifier, see nothing but these events.

  The log is a faithful ledger (`FaithfulLog`) exactly on the runs in which nobody cancels a
  booking that was never funded: `cancelBooking` publishes `depositRefunded` with the full
  amount on that path too, where no token moves. `Effect.gap`
  says what a committed call does to the difference of balance and log, `faithful_step` is
  the step lemma.
-/
import PovDeposit.Contract.Settlement
import Mathlib.Algebra.BigOperators.Group.List.Basic
import Mathlib.Algebra.Ring.Int.Defs

namespace PovDeposit.Contract

open PovDeposit.Lib PovDeposit.Lib.Outcome

/-- What an event says came into the escrow. -/
def ContractEvent.flow : ContractEvent → Int
  | .bookingCreated _ _ _ _ => 0
  | .bookingFunded _ amount => amount
  | .depositRefunded _ amount => -amount
  | .visitConfirmed _ amount => -amount

/-- Σ bookingFunded − Σ depositRefunded − Σ visitConfirmed. -/
def eventBalance (events : List LoggedEvent) : Int :=
  (events.map fun e => e.event.flow).sum

/-- The events that report a settlement, with the booking and the amount. -/
def ContractEvent.settlement? : ContractEvent → Option (UInt64 × Int)
  | .bookingCreated _ _ _ _ => none
  | .bookingFunded _ _ => none
  | .depositRefunded n amount => some (n, amount)
  | .visitConfirmed n amount => some (n, amount)

/-- Every settlement event of a call stands for a transfer of its amount to the renter,
    the only token movement of that call. -/
def Receipt.PaysEvents (contract asset : Address) (σ : Escrow) (r : Receipt) : Prop :=
  ∀ e ∈ r.events, ∀ n amount, e.event.settlement? = some (n, amount) →
    ∃ b, σ.booking? n = some b ∧ r.transfers = [⟨asset, contract, b.renter, amount⟩]

structure FaithfulLog (contract : Address) (s : Ledger) : Prop where
  balance : ∀ a, s.escrow.asset = some a →
    eventBalance s.escrow.events = s.escrow.balances a contract
  paid : ∀ a, s.escrow.asset = some a → ∀ r ∈ s.receipts, r.PaysEvents contract a s.escrow

/-- The step is a call of `cancelBooking` on a booking that was created and never funded,
    made and authorised by its renter before the visit time, with all entries live. -/
def WithdrawsUnfunded (s : Ledger) : Action → Prop
  | .invoke _ auths _ (.cancelBooking renter n) =>
      s.sequence ≤ s.escrow.instanceLiveUntil ∧
      ∃ e, s.escrow.bookings.lookup n = some e ∧ s.sequence ≤ e.liveUntil ∧
        e.value.state = .created ∧ e.value.renter = renter ∧ renter ∈ auths ∧
        s.timestamp < e.value.visitTime
  | _ => False

/-- The call, if it commits, cancels the booking `b` that was never funded. -/
def CancelsUnfunded (env : Env) (σ : Escrow) (call : Call) (b : Booking) : Prop :=
  ∃ n, call = .cancelBooking b.renter n ∧ σ.booking? n = some b ∧ b.state = .created ∧
    b.renter ∈ env.auths ∧ env.timestamp < b.visitTime

theorem eventBalance_concat (events : List LoggedEvent) (e : LoggedEvent) :
    eventBalance (events ++ [e]) = eventBalance events + e.event.flow := by
  simp [eventBalance]

/-! ## When a cancellation of a created booking commits -/

section Withdrawal

variable {d : Deployment} {s : Ledger} {hash : String} {auths : List Address}
  {acc : Address → Address → Address → Int → Bool}

/-- A withdrawal that commits met its guards. -/
theorem withdraws_of_commit {call : Call} {σ : Escrow} {b : Booking}
    (hinv : invoke (s.env d hash auths acc) s.escrow call = .ok σ)
    (h : CancelsUnfunded (s.env d hash auths acc) s.escrow call b) :
    WithdrawsUnfunded s (.invoke hash auths acc call) := by
  obtain ⟨n, rfl, hb, hstate, hauth, htime⟩ := h
  obtain ⟨hlive, hcancel⟩ := guard_eq_ok.mp hinv
  obtain ⟨x, hread, -⟩ := bind_eq_ok.mp hcancel
  obtain ⟨e, he, hentry⟩ := readBooking_live hread
  obtain rfl : b = e.value := by
    simpa [Escrow.booking?, he] using hb.symm
  exact ⟨Nat.le_of_not_lt hlive, e, he, hentry, hstate, rfl, hauth, htime⟩

/-- A withdrawal that meets its guards commits. -/
theorem commit_of_withdraws {call : Call}
    (h : WithdrawsUnfunded s (.invoke hash auths acc call)) :
    (∃ b, CancelsUnfunded (s.env d hash auths acc) s.escrow call b) ∧
      ∃ σ, invoke (s.env d hash auths acc) s.escrow call = .ok σ := by
  unfold WithdrawsUnfunded at h
  split at h
  rotate_left
  · exact h.elim
  rename_i renter n haction
  cases haction
  obtain ⟨hlive, e, he, hentry, hstate, rfl, hauth, htime⟩ := h
  obtain ⟨σ₁, hread⟩ : ∃ σ₁, readBooking (s.env d hash auths acc) s.escrow n = .ok (e.value, σ₁) :=
    ⟨_, readBooking_of_live (s.env d hash auths acc) he hentry⟩
  have hcancel : cancelBooking (s.env d hash auths acc) s.escrow e.value.renter n =
      .ok (publish (s.env d hash auths acc)
        (writeBooking (s.env d hash auths acc) σ₁ (e.value.withState .refunded))
        (.depositRefunded n e.value.depositAmount)) := by
    simp only [cancelBooking, bind_eq_ok, guard_eq_ok, requireAuth_eq_ok]
    refine ⟨(e.value, σ₁), hread, by simp, by simp [hstate], ?_, (), hauth, ?_⟩
    · simpa [Ledger.env] using htime
    · -- no transfer is made for a booking that was not funded
      rw [hstate]
      rfl
  have hinv : invoke (s.env d hash auths acc) s.escrow (.cancelBooking e.value.renter n) = _ :=
    (if_neg (Nat.not_lt.mpr hlive)).trans hcancel
  have hb : s.escrow.booking? n = some e.value := by
    rw [Escrow.booking?, he]
    rfl
  exact ⟨⟨e.value, n, rfl, hb, hstate, hauth, htime⟩, _, hinv⟩

end Withdrawal

/-! ## The invariant -/

/-- What the argument needs of a reachable state: bookings cost something, and nothing was
    published before there was an asset. -/
structure Audited (contract : Address) (s : Ledger) : Prop where
  solvent : Solvent contract s.escrow
  priced : ∀ n b, s.escrow.booking? n = some b → minDeposit ≤ b.depositAmount
  silent : s.escrow.asset = none → s.escrow.events = [] ∧ ∀ r ∈ s.receipts, r.events = []

theorem audited_of_fresh {d : Deployment} {s : Ledger} (h : Fresh d s) :
    Audited d.contract s := by
  refine ⟨solvent_of_fresh h, fun n b hb => ?_, fun _ => ⟨h.events, by simp [h.receipts]⟩⟩
  rw [booking?_eq_none.mpr (by rw [h.bookings, AList.lookup_empty])] at hb
  cases hb

/-- What a committed call does to the difference of the escrow's balance and its event log:
    nothing, unless it cancels a booking that was never funded. -/
theorem Effect.gap {env : Env} {σ σ' : Escrow} {call : Call} (heff : Effect env σ call σ')
    (h : Solvent env.contract σ) {a : Address} (ha : σ.asset = some a) :
    (∀ b, ¬ CancelsUnfunded env σ call b) ∧
      σ'.balances a env.contract - eventBalance σ'.events =
        σ.balances a env.contract - eventBalance σ.events ∨
    (∃ b, CancelsUnfunded env σ call b ∧
      σ'.balances a env.contract - eventBalance σ'.events =
        σ.balances a env.contract - eventBalance σ.events + b.depositAmount) := by
  have hother : (∀ renter n, call ≠ .cancelBooking renter n) →
      ∀ b, ¬ CancelsUnfunded env σ call b := by
    rintro hne b ⟨n, hcall, -⟩
    exact hne b.renter n hcall
  cases heff with
  | initializeEscrow admin a live hnone hauth =>
    rw [hnone] at ha
    cases ha
  | createBooking n renter host amount visitTime a live =>
    refine .inl ⟨hother (by simp), ?_⟩
    simp [eventBalance_concat, ContractEvent.flow]
  | booking n b live hb => exact .inl ⟨hother (by simp), rfl⟩
  | fundBooking n b a' live hb hstate hauth ha' hfunds =>
    obtain rfl : a = a' := by simpa [ha] using ha'
    refine .inl ⟨hother (by simp), ?_⟩
    simp only [publish_balances, store_balances, h.balance_deposit hb a, publish_events,
      store_events, pay_events, eventBalance_concat, ContractEvent.flow]
    omega
  | cancelUnfunded n b live hb hstate hauth htime =>
    refine .inr ⟨b, ⟨n, rfl, hb, hstate, hauth, htime⟩, ?_⟩
    simp only [publish_balances, store_balances, publish_events, store_events,
      eventBalance_concat, ContractEvent.flow]
    omega
  | cancelFunded n b a' live hb hstate hauth htime ha' hfunds =>
    obtain rfl : a = a' := by simpa [ha] using ha'
    refine .inl ⟨?_, ?_⟩
    · rintro x ⟨m, hcall, hx, hcreated, -⟩
      simp only [Call.cancelBooking.injEq] at hcall
      obtain rfl : b = x := by simpa [← hcall.2, hb] using hx
      rw [hstate] at hcreated
      cases hcreated
    · simp only [publish_balances, store_balances, h.balance_payout hb a, publish_events,
        store_events, pay_events, eventBalance_concat, ContractEvent.flow]
      omega
  | confirmVisit n b a' live hb hstate hauth htime ha' hfunds =>
    obtain rfl : a = a' := by simpa [ha] using ha'
    refine .inl ⟨hother (by simp), ?_⟩
    simp only [publish_balances, store_balances, h.balance_payout hb a, publish_events,
      store_events, pay_events, eventBalance_concat, ContractEvent.flow]
    omega

/-- The settlement events a committed call adds are paid by its transfers, unless it cancels
    a booking that was never funded. -/
theorem Effect.pays {env : Env} {σ σ' : Escrow} {call : Call} (heff : Effect env σ call σ')
    (hk : σ.Keyed) {a : Address} (ha : σ.asset = some a)
    (hnot : ∀ b, ¬ CancelsUnfunded env σ call b) :
    ∀ e ∈ σ'.events.drop σ.events.length, ∀ n amount,
      e.event.settlement? = some (n, amount) → ∃ b, σ'.booking? n = some b ∧
        σ'.transfers.drop σ.transfers.length = [⟨a, env.contract, b.renter, amount⟩] := by
  -- the two settling calls pay a booking out, store its new state and report it
  have hsettle : ∀ m x (state : BookingState) l (event : ContractEvent) (σ₁ : Escrow),
      σ.booking? m = some x → event.settlement? = some (m, x.depositAmount) →
      σ₁ = publish env ((σ.pay (x.payout a env.contract)).store (x.withState state) l) event →
      ∀ e ∈ σ₁.events.drop σ.events.length, ∀ n amount,
        e.event.settlement? = some (n, amount) → ∃ b, σ₁.booking? n = some b ∧
          σ₁.transfers.drop σ.transfers.length = [⟨a, env.contract, b.renter, amount⟩] := by
    intro m x state l event σ₁ hx hevent hσ e he n amount hn
    subst hσ
    simp only [publish_events, store_events, pay_events, List.drop_left, List.mem_singleton] at he
    rw [he, hevent] at hn
    cases hn
    refine ⟨x.withState state, ?_, by simp [Booking.payout, Booking.withState]⟩
    rw [booking?_publish, booking?_store, withState_bookingId, hk.bookingId hx, if_pos rfl]
  cases heff with
  | initializeEscrow => simp
  | createBooking => simp [ContractEvent.settlement?]
  | booking => simp
  | fundBooking => simp [ContractEvent.settlement?]
  | cancelUnfunded n b live hb hstate hauth htime =>
    exact absurd ⟨n, rfl, hb, hstate, hauth, htime⟩ (hnot b)
  | cancelFunded n b a' live hb hstate hauth htime ha' hfunds =>
    obtain rfl : a = a' := Option.some.inj (ha.symm.trans ha')
    exact hsettle n b .refunded live _ _ hb rfl rfl
  | confirmVisit n b a' live hb hstate hauth htime ha' hfunds =>
    obtain rfl : a = a' := Option.some.inj (ha.symm.trans ha')
    exact hsettle n b .released live _ _ hb rfl rfl

/-- Before there is an asset only `initialize` commits. -/
theorem Effect.of_unset {env : Env} {σ σ' : Escrow} {call : Call} (heff : Effect env σ call σ')
    (h : Solvent env.contract σ) (ha : σ.asset = none) :
    call.subject = none ∧ σ'.events = σ.events ∧ σ'.balances = σ.balances := by
  have hnone := h.booking?_of_unset ha
  cases heff with
  | initializeEscrow => exact ⟨rfl, rfl, rfl⟩
  | createBooking _ _ _ _ _ _ _ ha' =>
    rw [ha] at ha'
    cases ha'
  | booking n b live hb => exact absurd hb (hnone n b)
  | fundBooking n b a live hb => exact absurd hb (hnone n b)
  | cancelUnfunded n b live hb => exact absurd hb (hnone n b)
  | cancelFunded n b a live hb => exact absurd hb (hnone n b)
  | confirmVisit n b a live hb => exact absurd hb (hnone n b)

variable {d : Deployment}

theorem audited_step (s : Ledger) (a : Action) (s' : Ledger) (h : Audited d.contract s)
    (hstep : ledgerStep d s a = some s') : Audited d.contract s' := by
  have hsolvent := solvent_step s a s' h.solvent hstep
  rcases ledgerStep_cases h.solvent.keyed hstep with ⟨t, q, -, -, -, rfl⟩ | ⟨m, -, rfl⟩ |
    ⟨hash, auths, acc, call, σ, -, hself, -, heff, rfl⟩ | ⟨-, -, -, -, -, -, -, rfl⟩
  · exact ⟨hsolvent, h.priced, h.silent⟩
  · exact ⟨hsolvent, h.priced, h.silent⟩
  · refine ⟨hsolvent, fun n b' hb' => ?_, fun hnone => ?_⟩
    · rcases heff.origin h.solvent.keyed hb' with ⟨b, hb, hterms, -⟩ | ⟨-, -, -, hmin, -⟩
      · exact hterms.depositAmount ▸ h.priced n b hb
      · exact hmin
    · -- an asset, once set, stays
      have hold : s.escrow.asset = none := by
        cases ha : s.escrow.asset with
        | none => rfl
        | some a =>
          have hkept : σ.asset = some a := heff.asset_eq ha
          exact absurd (hkept.symm.trans hnone) (by simp)
      obtain ⟨hevents, hreceipts⟩ := h.silent hold
      obtain ⟨-, hσ, -⟩ := heff.of_unset h.solvent hold
      refine ⟨hσ.trans hevents, fun r hr => ?_⟩
      rcases List.mem_append.mp hr with hr | hr
      · exact hreceipts r hr
      · rw [List.mem_singleton.mp hr]
        simp [hσ]
  · exact h

/-- The receipts kept so far stay paid: a renter never changes. -/
theorem paysEvents_mono {contract asset : Address} {σ σ' : Escrow} {r : Receipt}
    (h : r.PaysEvents contract asset σ)
    (hterms : ∀ n b, σ.booking? n = some b → ∃ b', σ'.booking? n = some b' ∧ b.SameTerms b') :
    r.PaysEvents contract asset σ' := by
  intro e he n amount hevent
  obtain ⟨b, hb, hts⟩ := h e he n amount hevent
  obtain ⟨b', hb', hsame⟩ := hterms n b hb
  exact ⟨b', hb', by rw [hts, hsame.renter]⟩

/-- A committed call keeps the log faithful exactly if it does not cancel a booking that was
    never funded. -/
theorem faithful_commit {s : Ledger} (h : Audited d.contract s) (hf : FaithfulLog d.contract s)
    {hash : String} {auths : List Address} {acc : Address → Address → Address → Int → Bool}
    {call : Call} {σ : Escrow} (heff : Effect (s.env d hash auths acc) s.escrow call σ) :
    FaithfulLog d.contract (s.commit auths call σ) ↔
      ∀ b, ¬ CancelsUnfunded (s.env d hash auths acc) s.escrow call b := by
  have hk := h.solvent.keyed
  have hterms : ∀ n b, s.escrow.booking? n = some b →
      ∃ b', σ.booking? n = some b' ∧ b.SameTerms b' := by
    intro n b hb
    obtain ⟨b', hb', hsame, -⟩ := heff.edge hk hb
    exact ⟨b', hb', hsame⟩
  cases ha : s.escrow.asset with
  | none =>
    obtain ⟨hsub, hevents, hbalances⟩ := heff.of_unset h.solvent ha
    obtain ⟨hsilent, hreceipts⟩ := h.silent ha
    refine iff_of_true ⟨fun a _ => ?_, fun a _ r hr => ?_⟩ ?_
    · show eventBalance σ.events = σ.balances a d.contract
      rw [hevents, hsilent, hbalances, h.solvent.unset ha a]
      rfl
    · have hempty : r.events = [] := by
        rcases List.mem_append.mp hr with hr | hr
        · exact hreceipts r hr
        · rw [List.mem_singleton.mp hr]
          simp [hevents]
      intro e he
      rw [hempty] at he
      cases he
    · rintro b ⟨n, rfl, -⟩
      cases hsub
  | some a =>
    have hbalance := hf.balance a ha
    rcases heff.gap h.solvent ha with ⟨hnot, hgap⟩ | ⟨b, hcancels, hgap⟩
    · refine iff_of_true ⟨fun a' ha' => ?_, fun a' ha' r hr => ?_⟩ hnot
      all_goals
        obtain rfl : a' = a := by
          simpa [heff.asset_eq ha] using ha'.symm
      · have hgap' : σ.balances a' d.contract - eventBalance σ.events =
            s.escrow.balances a' d.contract - eventBalance s.escrow.events := hgap
        show eventBalance σ.events = σ.balances a' d.contract
        omega
      · rcases List.mem_append.mp hr with hr | hr
        · exact paysEvents_mono (hf.paid a' ha r hr) hterms
        · rw [List.mem_singleton.mp hr]
          exact heff.pays hk ha hnot
    · refine iff_of_false (fun hf' => ?_) (fun hnot => hnot b hcancels)
      have hgap' : σ.balances a d.contract - eventBalance σ.events =
          s.escrow.balances a d.contract - eventBalance s.escrow.events + b.depositAmount := hgap
      have hbalance' : eventBalance σ.events = σ.balances a d.contract :=
        hf'.balance a (heff.asset_eq ha)
      obtain ⟨n, -, hb, -⟩ := hcancels
      have hpriced := h.priced n b hb
      unfold minDeposit at hpriced
      omega

/-- A step keeps the log faithful exactly if it is not a withdrawal. -/
theorem faithful_step (s : Ledger) (a : Action) (s' : Ledger) (h : Audited d.contract s)
    (hf : FaithfulLog d.contract s) (hstep : ledgerStep d s a = some s') :
    FaithfulLog d.contract s' ↔ ¬ WithdrawsUnfunded s a := by
  rcases ledgerStep_cases h.solvent.keyed hstep with ⟨t, q, rfl, -, -, rfl⟩ | ⟨m, rfl, rfl⟩ |
    ⟨hash, auths, acc, call, σ, rfl, hself, hinv, heff, rfl⟩ |
    ⟨hash, auths, acc, call, f, rfl, hinv, rfl⟩
  · exact iff_of_true ⟨hf.balance, hf.paid⟩ not_false
  · refine iff_of_true ⟨fun a ha => ?_, hf.paid⟩ not_false
    exact (hf.balance a ha).trans (othersMove_self d _ m a).symm
  · rw [faithful_commit h hf heff]
    constructor
    · intro hnot hw
      obtain ⟨⟨b, hb⟩, -⟩ := commit_of_withdraws (d := d) hw
      exact hnot b hb
    · intro hnot b hb
      exact hnot (withdraws_of_commit hinv hb)
  · refine iff_of_true hf (fun hw => ?_)
    obtain ⟨-, σ, hσ⟩ := commit_of_withdraws (d := d) hw
    rw [hinv] at hσ
    cases hσ

theorem faithfulLog_of_fresh {s : Ledger} (h : Fresh d s) : FaithfulLog d.contract s := by
  refine ⟨fun a ha => ?_, fun a ha => ?_⟩
  all_goals
    rw [h.asset] at ha
    cases ha

/-- **The event log as a money ledger.** Along a run from a fresh deployment the event log
    agrees with the balance, and every settlement event with a payment, in every state passed
    exactly if no step of the run cancels a booking that was never funded. -/
theorem event_ledger_faithful_iff (s₀ s : Ledger) (as : List Action) (h₀ : Fresh d s₀)
    (hrun : (ledgerMachine d).exec s₀ as = some s) :
    (∀ t ∈ (ledgerMachine d).visited s₀ as, FaithfulLog d.contract t) ↔
      (ledgerMachine d).Along (fun t a => ¬ WithdrawsUnfunded t a) s₀ as :=
  (ledgerMachine d).visited_iff_along (I := Audited d.contract) audited_step
    (fun s a s' h hf hstep => faithful_step s a s' h hf hstep) hrun (audited_of_fresh h₀)
    (faithfulLog_of_fresh h₀)

theorem event_ledger_faithful_funded :
    ∃ s, (ledgerMachine ⟨"escrow", 300000⟩).exec
        (freshLedger ⟨"escrow", 300000⟩ 1000 7 500000 fun _ _ => 10000000) fundedRun = some s ∧
      ∀ t ∈ (ledgerMachine ⟨"escrow", 300000⟩).visited
        (freshLedger ⟨"escrow", 300000⟩ 1000 7 500000 fun _ _ => 10000000) fundedRun,
        FaithfulLog "escrow" t := by
  obtain ⟨s, hrun⟩ : ∃ s, (ledgerMachine ⟨"escrow", 300000⟩).exec
      (freshLedger ⟨"escrow", 300000⟩ 1000 7 500000 fun _ _ => 10000000) fundedRun = some s :=
    ⟨_, rfl⟩
  refine ⟨s, hrun, ?_⟩
  refine (event_ledger_faithful_iff _ s fundedRun (fresh_freshLedger _ _ _ _ _) hrun).mpr ?_
  exact ⟨not_false, fun _ _ => ⟨not_false, fun _ _ => ⟨not_false, fun _ _ => trivial⟩⟩⟩

/-- A run that creates booking 1 and cancels it before it is funded. -/
def withdrawnRun : List Action :=
  [.invoke "t0" ["admin"] (fun _ _ _ _ => true) (.initializeEscrow "admin" "XLM"),
   .invoke "t1" ["renter"] (fun _ _ _ _ => true) (.createBooking 1 "renter" "host" 1000000 2000),
   .invoke "t2" ["renter"] (fun _ _ _ _ => true) (.cancelBooking "renter" 1)]

/-- After `withdrawnRun` the log says that a deposit went out; none did, and none came in. -/
theorem event_ledger_withdrawn :
    ∃ s r, (ledgerMachine ⟨"escrow", 300000⟩).exec
        (freshLedger ⟨"escrow", 300000⟩ 1000 7 500000 fun _ _ => 10000000) withdrawnRun = some s ∧
      eventBalance s.escrow.events = -1000000 ∧ s.escrow.balances "XLM" "escrow" = 0 ∧
      r ∈ s.receipts ∧ r.events = [⟨"t2", 7, .depositRefunded 1 1000000⟩] ∧ r.transfers = [] := by
  refine ⟨_, _, rfl, rfl, rfl, List.mem_cons_of_mem _ (List.mem_cons_of_mem _
    (List.mem_cons_self ..)), rfl, rfl⟩

end PovDeposit.Contract
