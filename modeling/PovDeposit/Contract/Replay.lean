/-
  The bookings of the escrow, replayed.

  Two logs tell what the contract stores. The calls that committed tell all of it: replaying
  them (`Call.update`) gives the stored bookings. The events tell what an indexer can know:
  replaying them (`ContractEvent.update`) gives every booking but its visit time, which no
  event carries. `Effect.replays` is the step lemma for both, and what a booking is depends
  on nothing but the calls that name it.
-/
import PovDeposit.Contract.Evidence
import PovDeposit.Lib.Replay

namespace PovDeposit.Contract

open PovDeposit.Lib

/-! ## What a call and an event say about a booking -/

/-- The booking a committed call leaves where `x` was. -/
def Call.update (call : Call) (x : Option Booking) : Option Booking :=
  match call with
  | .createBooking bookingId renter host depositAmount visitTime =>
      some ⟨bookingId, renter, host, depositAmount, visitTime, .created⟩
  | .fundBooking _ _ => x.map (·.withState .funded)
  | .cancelBooking _ _ => x.map (·.withState .refunded)
  | .confirmVisit _ _ => x.map (·.withState .released)
  | .initializeEscrow _ _ => x
  | .booking _ => x

/-- The stored bookings that committed calls lead to. -/
def replayCalls (calls : List Call) : UInt64 → Option Booking :=
  replay Call.subject Call.update (fun _ => none) calls

/-- What the events show of a booking. -/
structure IndexedBooking where
  renter : Address
  host : Address
  depositAmount : Int
  state : BookingState
  deriving DecidableEq, Repr

def Booking.indexed (b : Booking) : IndexedBooking :=
  ⟨b.renter, b.host, b.depositAmount, b.state⟩

/-- How an indexer reads an event. -/
def ContractEvent.update (event : ContractEvent) (x : Option IndexedBooking) :
    Option IndexedBooking :=
  match event with
  | .bookingCreated _ renter host depositAmount => some ⟨renter, host, depositAmount, .created⟩
  | .bookingFunded _ _ => x.map fun b => { b with state := .funded }
  | .depositRefunded _ _ => x.map fun b => { b with state := .refunded }
  | .visitConfirmed _ _ => x.map fun b => { b with state := .released }

def LoggedEvent.subject (e : LoggedEvent) : Option UInt64 := some e.event.bookingId

def LoggedEvent.update (e : LoggedEvent) : Option IndexedBooking → Option IndexedBooking :=
  e.event.update

/-- An indexer that starts from `known` and reads a log of events. -/
def reindex (known : UInt64 → Option IndexedBooking) (events : List LoggedEvent) :
    UInt64 → Option IndexedBooking :=
  replay LoggedEvent.subject LoggedEvent.update known events

/-- What an indexer that is up to date knows. -/
def Escrow.indexed (σ : Escrow) : UInt64 → Option IndexedBooking :=
  fun n => (σ.booking? n).map Booking.indexed

/-! ## One committed call -/

theorem reindex_single (known : UInt64 → Option IndexedBooking) {e : LoggedEvent} {m : UInt64}
    (hsub : e.subject = some m) (n : UInt64) :
    reindex known [e] n = if n = m then e.event.update (known m) else known n :=
  applyAt_of_key hsub n

theorem replayCall_apply (stored : UInt64 → Option Booking) {call : Call} {m : UInt64}
    (hsub : call.subject = some m) (n : UInt64) :
    applyAt Call.subject Call.update stored call n =
      if n = m then call.update (stored m) else stored n :=
  applyAt_of_key hsub n

/-- The bookings after a committed call are the replay of the call, and the events it published
    show as much. -/
theorem Effect.replays {env : Env} {σ σ' : Escrow} {call : Call} (heff : Effect env σ call σ')
    (hk : σ.Keyed) :
    σ'.booking? = applyAt Call.subject Call.update σ.booking? call ∧
      ∃ es, σ'.events = σ.events ++ es ∧ σ'.indexed = reindex σ.indexed es := by
  -- the calls on a stored booking move it to a state and publish one event about it
  have hmove : ∀ m (x : Booking) (state : BookingState) (σ₁ : Escrow) (ev : ContractEvent),
      σ.booking? m = some x → call.subject = some m →
      (∀ y : Option Booking, call.update y = y.map (·.withState state)) →
      ev.bookingId = m → (∀ y, ev.update y = y.map fun b => { b with state := state }) →
      (∀ n, σ₁.booking? n = if n = m then some (x.withState state) else σ.booking? n) →
      σ₁.events = σ.events ++ [⟨env.txHash, env.sequence, ev⟩] →
      σ₁.booking? = applyAt Call.subject Call.update σ.booking? call ∧
        ∃ es, σ₁.events = σ.events ++ es ∧ σ₁.indexed = reindex σ.indexed es := by
    intro m x state σ₁ ev hx hsub hupd hid hevent hbooking hlog
    refine ⟨funext fun n => ?_, _, hlog, funext fun n => ?_⟩
    · rw [hbooking, replayCall_apply _ hsub, hupd, hx]
      rfl
    · rw [reindex_single (m := m) _ (congrArg some hid), hevent]
      unfold Escrow.indexed
      rw [hbooking, hx]
      by_cases hn : n = m
      · rw [if_pos hn, if_pos hn]
        rfl
      · rw [if_neg hn, if_neg hn]
  cases heff with
  | initializeEscrow admin a live => exact ⟨rfl, [], (List.append_nil _).symm, rfl⟩
  | createBooking m renter host amount visitTime a live ha hnew =>
    refine ⟨funext fun n => ?_, _, rfl, funext fun n => ?_⟩
    · rw [replayCall_apply (m := m) _ rfl]
      exact booking?_store _ _ live n
    · rw [reindex_single (m := m) _ rfl]
      unfold Escrow.indexed
      rw [booking?_publish, booking?_store]
      by_cases hn : n = m
      · rw [if_pos hn, if_pos hn]
        rfl
      · rw [if_neg hn, if_neg hn]
  | booking m x live hx =>
    have hsame : ∀ n, (σ.store x live).booking? n = σ.booking? n := booking?_store_same hk hx live
    refine ⟨funext fun n => ?_, [], (List.append_nil _).symm, funext fun n => ?_⟩
    · rw [hsame]
      rfl
    · rw [Escrow.indexed, hsame]
      rfl
  | fundBooking m x a live hx =>
    exact hmove m x .funded _ _ hx rfl (fun _ => rfl) rfl (fun _ => rfl)
      (booking?_withState (σ := σ.pay _) hk hx .funded live) rfl
  | cancelUnfunded m x live hx =>
    exact hmove m x .refunded _ _ hx rfl (fun _ => rfl) rfl (fun _ => rfl)
      (booking?_withState hk hx .refunded live) rfl
  | cancelFunded m x a live hx =>
    exact hmove m x .refunded _ _ hx rfl (fun _ => rfl) rfl (fun _ => rfl)
      (booking?_withState (σ := σ.pay _) hk hx .refunded live) rfl
  | confirmVisit m x a live hx =>
    exact hmove m x .released _ _ hx rfl (fun _ => rfl) rfl (fun _ => rfl)
      (booking?_withState (σ := σ.pay _) hk hx .released live) rfl

/-! ## Whole runs -/

variable {d : Deployment}

theorem calls_step (s : Ledger) (a : Action) (s' : Ledger) (h : Solvent d.contract s.escrow)
    (hstep : ledgerStep d s a = some s') : ∃ cs, s'.receipts.map Receipt.call =
      s.receipts.map Receipt.call ++ cs ∧
      s'.escrow.booking? = replay Call.subject Call.update s.escrow.booking? cs := by
  rcases ledgerStep_cases h.keyed hstep with ⟨t, q, -, -, -, rfl⟩ | ⟨m, -, rfl⟩ |
    ⟨hash, auths, acc, call, σ, -, hself, -, heff, rfl⟩ | ⟨-, -, -, -, -, -, -, rfl⟩
  · exact ⟨[], (List.append_nil _).symm, rfl⟩
  · exact ⟨[], (List.append_nil _).symm, rfl⟩
  · refine ⟨[call], ?_, (heff.replays h.keyed).1⟩
    simp [Ledger.commit]
  · exact ⟨[], (List.append_nil _).symm, rfl⟩

theorem events_step (s : Ledger) (a : Action) (s' : Ledger) (h : Solvent d.contract s.escrow)
    (hstep : ledgerStep d s a = some s') : ∃ es, s'.escrow.events = s.escrow.events ++ es ∧
      s'.escrow.indexed = reindex s.escrow.indexed es := by
  rcases ledgerStep_cases h.keyed hstep with ⟨t, q, -, -, -, rfl⟩ | ⟨m, -, rfl⟩ |
    ⟨hash, auths, acc, call, σ, -, hself, -, heff, rfl⟩ | ⟨-, -, -, -, -, -, -, rfl⟩
  · exact ⟨[], (List.append_nil _).symm, rfl⟩
  · exact ⟨[], (List.append_nil _).symm, rfl⟩
  · exact (heff.replays h.keyed).2
  · exact ⟨[], (List.append_nil _).symm, rfl⟩

theorem reindex_exec {s s' : Ledger} {as : List Action} (h : Solvent d.contract s.escrow)
    (hrun : (ledgerMachine d).exec s as = some s') : ∃ es,
      s'.escrow.events = s.escrow.events ++ es ∧
      s'.escrow.indexed = reindex s.escrow.indexed es :=
  (ledgerMachine d).exec_replay (I := fun s => Solvent d.contract s.escrow)
    (fun s => s.escrow.indexed) (fun s => s.escrow.events) solvent_step events_step hrun h

theorem booking?_of_fresh {s : Ledger} (h₀ : Fresh d s) (n : UInt64) :
    s.escrow.booking? n = none :=
  booking?_eq_none.mpr (by rw [h₀.bookings, AList.lookup_empty])

theorem replayCalls_of_exec {s₀ s : Ledger} {as : List Action} (h₀ : Fresh d s₀)
    (hrun : (ledgerMachine d).exec s₀ as = some s) :
    s.escrow.booking? = replayCalls (s.receipts.map Receipt.call) := by
  obtain ⟨cs, hcalls, hbookings⟩ := (ledgerMachine d).exec_replay
    (I := fun s => Solvent d.contract s.escrow) (fun s => s.escrow.booking?)
    (fun s => s.receipts.map Receipt.call) solvent_step calls_step hrun (solvent_of_fresh h₀)
  rw [h₀.receipts] at hcalls
  rw [hbookings, hcalls, funext (booking?_of_fresh h₀)]
  rfl

/-- **The bookings, replayed.** After any run the stored bookings are the replay of the calls
    that committed, and, but for the visit time, of the events; an indexer that was up to date
    at any point of the run and reads the events published since is up to date at its end; and
    a booking is the same at the ends of any two runs, even of different deployments, whose
    committed calls on it are the same, whatever else happened between them. -/
theorem bookings_replay (s₀ s : Ledger) (as : List Action) (h₀ : Fresh d s₀)
    (hrun : (ledgerMachine d).exec s₀ as = some s) :
    s.escrow.booking? = replayCalls (s.receipts.map Receipt.call) ∧
    s.escrow.indexed = reindex (fun _ => none) s.escrow.events ∧
    (∀ bs t, (ledgerMachine d).exec s bs = some t → ∃ es,
      t.escrow.events = s.escrow.events ++ es ∧ t.escrow.indexed = reindex s.escrow.indexed es) ∧
    (∀ (d' : Deployment) (s₀' s' : Ledger) (as' : List Action) (n : UInt64), Fresh d' s₀' →
      (ledgerMachine d').exec s₀' as' = some s' →
      ((s.receipts.map Receipt.call).filter fun c => c.subject = some n) =
        ((s'.receipts.map Receipt.call).filter fun c => c.subject = some n) →
      s.escrow.booking? n = s'.escrow.booking? n) := by
  refine ⟨replayCalls_of_exec h₀ hrun, ?_, fun bs t hrun' => ?_, ?_⟩
  · obtain ⟨es, hevents, hindexed⟩ := reindex_exec (solvent_of_fresh h₀) hrun
    have hnone : s₀.escrow.indexed = fun _ => none :=
      funext fun n => by rw [Escrow.indexed, booking?_of_fresh h₀ n]; rfl
    rw [h₀.events, List.nil_append] at hevents
    rw [hindexed, hevents, hnone]
  · exact reindex_exec (solvent_of_exec h₀ hrun) hrun'
  · intro d' s₀' s' as' n h₀' hrun' hcalls
    rw [replayCalls_of_exec h₀ hrun, replayCalls_of_exec h₀' hrun']
    exact replay_congr rfl (congrArg _ hcalls)

theorem bookings_replay_funded :
    ∃ s, (ledgerMachine ⟨"escrow", 300000⟩).exec
        (freshLedger ⟨"escrow", 300000⟩ 1000 7 500000 fun _ _ => 10000000) fundedRun = some s ∧
      reindex (fun _ => none) s.escrow.events 1 = some ⟨"renter", "host", 1000000, .funded⟩ ∧
      s.escrow.indexed = reindex (fun _ => none) s.escrow.events := by
  obtain ⟨s, hrun, hshown⟩ : ∃ s, (ledgerMachine ⟨"escrow", 300000⟩).exec
      (freshLedger ⟨"escrow", 300000⟩ 1000 7 500000 fun _ _ => 10000000) fundedRun = some s ∧
      reindex (fun _ => none) s.escrow.events 1 = some ⟨"renter", "host", 1000000, .funded⟩ :=
    ⟨_, rfl, rfl⟩
  have h := bookings_replay _ s fundedRun (fresh_freshLedger _ _ _ _ _) hrun
  exact ⟨s, hrun, hshown, h.2.1⟩

end PovDeposit.Contract
