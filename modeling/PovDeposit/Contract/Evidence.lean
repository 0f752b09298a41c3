/-
  What the event log shows about a booking.

  `Story` lists the histories a booking can have, each with the events published about it and
  the token movements made for it. `Chronicled` is the invariant: every stored booking has the
  story of its state, and nothing was published about any other id. So each kind of event
  comes at most once for a booking (`Story.once`), and what the API concludes from one event,
  that a deposit came in, went back or was released, can be read off the story.
-/
import PovDeposit.Contract.Settlement

namespace PovDeposit.Contract

open PovDeposit.Lib PovDeposit.Lib.Outcome

def ContractEvent.bookingId : ContractEvent → UInt64
  | .bookingCreated n _ _ _ => n
  | .bookingFunded n _ => n
  | .depositRefunded n _ => n
  | .visitConfirmed n _ => n

/-- The events about booking `n`, in order. -/
def eventsOf (n : UInt64) (log : List LoggedEvent) : List LoggedEvent :=
  log.filter fun e => e.event.bookingId = n

theorem eventsOf_concat (n : UInt64) (log : List LoggedEvent) (e : LoggedEvent) :
    eventsOf n (log ++ [e]) = eventsOf n log ++ if e.event.bookingId = n then [e] else [] := by
  unfold eventsOf
  rw [List.filter_append]
  split
  · rename_i h
    simp [h]
  · rename_i h
    simp [h]

section Events

variable (b : Booking)

def Booking.created : ContractEvent := .bookingCreated b.bookingId b.renter b.host b.depositAmount
def Booking.funded : ContractEvent := .bookingFunded b.bookingId b.depositAmount
def Booking.refunded : ContractEvent := .depositRefunded b.bookingId b.depositAmount
def Booking.confirmed : ContractEvent := .visitConfirmed b.bookingId b.depositAmount

/-- The events there can be about a booking. -/
def Booking.events : List ContractEvent := [b.created, b.funded, b.refunded, b.confirmed]

end Events

/-- The histories of a booking: its state, the events about it, and its token movements. -/
inductive Story (contract asset : Address) (b : Booking) :
    BookingState → List ContractEvent → List Transfer → Prop where
  | created : Story contract asset b .created [b.created] []
  | funded : Story contract asset b .funded [b.created, b.funded] [b.deposit asset contract]
  | withdrawn : Story contract asset b .refunded [b.created, b.refunded] []
  | refunded : Story contract asset b .refunded [b.created, b.funded, b.refunded]
      [b.deposit asset contract, b.payout asset contract]
  | released : Story contract asset b .released [b.created, b.funded, b.confirmed]
      [b.deposit asset contract, b.payout asset contract]

section Readings

variable {contract asset : Address} {b : Booking} {state : BookingState} {es : List ContractEvent}
  {ts : List Transfer} (h : Story contract asset b state es ts)
include h

/-- No event is published twice. -/
theorem Story.once : es.Nodup := by
  cases h <;> simp [Booking.created, Booking.funded, Booking.refunded, Booking.confirmed]

theorem Story.subset : es ⊆ b.events := by
  cases h <;> simp [Booking.events]

/-- A refund event of a booking that was funded stands for a deposit that came in and went
    out again. -/
theorem Story.repaid (hfunded : b.funded ∈ es) (hrefunded : b.refunded ∈ es) :
    state = .refunded ∧ ts = [b.deposit asset contract, b.payout asset contract] := by
  cases h <;> simp_all [Booking.created, Booking.funded, Booking.refunded, Booking.confirmed]

theorem Story.confirmed (hconfirmed : b.confirmed ∈ es) :
    state = .released ∧ ts = [b.deposit asset contract, b.payout asset contract] := by
  cases h <;> simp_all [Booking.created, Booking.funded, Booking.refunded, Booking.confirmed]

theorem Story.not_refunded (hstate : state = .funded) : b.refunded ∉ es := by
  cases h <;> simp_all [Booking.created, Booking.funded, Booking.refunded]

/-- Of a booking that was funded each outcome has its own event. -/
theorem Story.shows (hfunded : b.funded ∈ es) :
    (state = .refunded → b.refunded ∈ es ∧ b.confirmed ∉ es) ∧
    (state = .released → b.confirmed ∈ es ∧ b.refunded ∉ es) := by
  cases h <;> simp_all [Booking.created, Booking.funded, Booking.refunded, Booking.confirmed]

end Readings

/-! ## How a story goes on -/

section Steps

variable {contract asset : Address} {b : Booking} {es : List ContractEvent} {ts : List Transfer}

theorem Story.fund (h : Story contract asset b .created es ts) :
    Story contract asset (b.withState .funded) .funded (es ++ [b.funded])
      (ts ++ [b.deposit asset contract]) := by
  cases h
  exact .funded

theorem Story.withdraw (h : Story contract asset b .created es ts) :
    Story contract asset (b.withState .refunded) .refunded (es ++ [b.refunded]) (ts ++ []) := by
  cases h
  exact .withdrawn

theorem Story.refund (h : Story contract asset b .funded es ts) :
    Story contract asset (b.withState .refunded) .refunded (es ++ [b.refunded])
      (ts ++ [b.payout asset contract]) := by
  cases h
  exact .refunded

theorem Story.release (h : Story contract asset b .funded es ts) :
    Story contract asset (b.withState .released) .released (es ++ [b.confirmed])
      (ts ++ [b.payout asset contract]) := by
  cases h
  exact .released

end Steps

/-! ## The invariant -/

structure Chronicled (contract : Address) (s : Ledger) : Prop where
  recorded : Recorded contract s
  untold : ∀ n, s.escrow.booking? n = none → eventsOf n s.escrow.events = []
  told : ∀ n b a, s.escrow.booking? n = some b → s.escrow.asset = some a →
    Story contract a b b.state ((eventsOf n s.escrow.events).map LoggedEvent.event)
      (transfersOf n s.receipts)

theorem chronicled_of_fresh {d : Deployment} {s : Ledger} (h : Fresh d s) :
    Chronicled d.contract s := by
  refine ⟨recorded_of_fresh h, fun n _ => by rw [h.events]; rfl, fun n b a _ ha => ?_⟩
  rw [h.asset] at ha
  cases ha

/-- A committed call that writes booking `n`, with its event. -/
theorem Chronicled.commit_subject {contract : Address} {s : Ledger} (h : Chronicled contract s)
    {auths : List Address} {call : Call} {σ : Escrow} {n : UInt64} {b' : Booking}
    {e : LoggedEvent} (ts : List Transfer) (hrec : Recorded contract (s.commit auths call σ))
    (hsub : call.subject = some n) (hasset : σ.asset = s.escrow.asset)
    (hbooking : ∀ m, σ.booking? m = if m = n then some b' else s.escrow.booking? m)
    (hts : σ.transfers = s.escrow.transfers ++ ts) (hlog : σ.events = s.escrow.events ++ [e])
    (hid : e.event.bookingId = n)
    (hstory : ∀ a, s.escrow.asset = some a → Story contract a b' b'.state
      ((eventsOf n s.escrow.events).map LoggedEvent.event ++ [e.event])
      (transfersOf n s.receipts ++ ts)) : Chronicled contract (s.commit auths call σ) := by
  have hdrop : σ.transfers.drop s.escrow.transfers.length = ts := by rw [hts, List.drop_left]
  refine ⟨hrec, fun m hm => ?_, fun m b a hb ha => ?_⟩
  · have hmn : m ≠ n := by
      rintro rfl
      simp only [commit_escrow, hbooking, if_pos] at hm
      cases hm
    simp only [commit_escrow, hbooking, if_neg hmn] at hm
    rw [commit_escrow, hlog, eventsOf_concat, if_neg (by rw [hid]; exact hmn.symm),
      List.append_nil]
    exact h.untold m hm
  · simp only [commit_escrow, hbooking] at hb
    have ha' : s.escrow.asset = some a := hasset.symm.trans ha
    split at hb
    · rename_i hmn
      cases hb
      subst hmn
      have hnew := hstory a ha'
      rw [commit_escrow, hlog, eventsOf_concat, if_pos hid, List.map_append, Ledger.commit,
        transfersOf_concat, if_pos hsub, hdrop]
      exact hnew
    · rename_i hmn
      have hold := h.told m b a hb ha'
      rw [commit_escrow, hlog, eventsOf_concat, if_neg (by rw [hid]; exact Ne.symm hmn),
        List.append_nil, Ledger.commit, transfersOf_concat, if_neg ?_, List.append_nil]
      · exact hold
      · show call.subject ≠ some m
        rw [hsub]
        simpa using Ne.symm hmn

/-- A committed call that writes no booking and publishes nothing. -/
theorem Chronicled.commit_plain {contract : Address} {s : Ledger} (h : Chronicled contract s)
    {auths : List Address} {call : Call} {σ : Escrow}
    (hrec : Recorded contract (s.commit auths call σ)) (hsub : call.subject = none)
    (hasset : ∀ n b, s.escrow.booking? n = some b → σ.asset = s.escrow.asset)
    (hbooking : ∀ m, σ.booking? m = s.escrow.booking? m) (hlog : σ.events = s.escrow.events) :
    Chronicled contract (s.commit auths call σ) := by
  refine ⟨hrec, fun m hm => ?_, fun m b a hb ha => ?_⟩
  · rw [commit_escrow, hlog]
    exact h.untold m ((hbooking m).symm.trans hm)
  · have hb' : s.escrow.booking? m = some b := (hbooking m).symm.trans hb
    have hold := h.told m b a hb' ((hasset m b hb').symm.trans ha)
    rw [commit_escrow, hlog, Ledger.commit, transfersOf_concat, if_neg ?_, List.append_nil]
    · exact hold
    · show call.subject ≠ some m
      rw [hsub]
      simp

/-- A committed call carries the stories on. -/
theorem Effect.chronicled {contract : Address} {s : Ledger} (h : Chronicled contract s) {env : Env}
    {call : Call} {σ : Escrow} (hcontract : env.contract = contract)
    (htimestamp : env.timestamp = s.timestamp) (hself : contract ∉ env.auths)
    (heff : Effect env s.escrow call σ) : Chronicled contract (s.commit env.auths call σ) := by
  have hrec := heff.recorded h.recorded hcontract htimestamp hself
  have hk := h.recorded.solvent.keyed
  subst hcontract
  -- the story so far of a booking that a call finds in some state
  have htold : ∀ n b a state, s.escrow.booking? n = some b → s.escrow.asset = some a →
      b.state = state → Story env.contract a b state
        ((eventsOf n s.escrow.events).map LoggedEvent.event) (transfersOf n s.receipts) := by
    intro n b a state hb ha hstate
    exact hstate ▸ h.told n b a hb ha
  cases heff with
  | initializeEscrow admin a live hnone hauth =>
    exact h.commit_plain hrec rfl
      (fun n b hb => absurd hb (h.recorded.solvent.booking?_of_unset hnone n b)) (fun _ => rfl) rfl
  | createBooking n renter host amount visitTime a live ha hnew =>
    refine h.commit_subject [] hrec rfl rfl (fun m => booking?_store _ _ _ m) (by simp) rfl rfl ?_
    intro a' _
    rw [h.untold n hnew, h.recorded.transfersOf_of_none hnew]
    exact .created
  | booking n b live hb =>
    exact h.commit_plain hrec rfl (fun _ _ _ => rfl) (booking?_store_same hk hb live) rfl
  | fundBooking n b a live hb hstate hauth ha hfunds =>
    obtain rfl : b.bookingId = n := hk.bookingId hb
    refine h.commit_subject [b.deposit a env.contract] hrec rfl rfl
      (booking?_withState (σ := s.escrow.pay _) hk hb .funded live) rfl rfl rfl ?_
    intro a' ha'
    obtain rfl : a = a' := by simpa [ha] using ha'
    exact (htold _ b a _ hb ha hstate).fund
  | cancelUnfunded n b live hb hstate hauth htime =>
    obtain rfl : b.bookingId = n := hk.bookingId hb
    refine h.commit_subject [] hrec rfl rfl (booking?_withState hk hb .refunded live) (by simp)
      rfl rfl ?_
    intro a ha
    exact (htold _ b a _ hb ha hstate).withdraw
  | cancelFunded n b a live hb hstate hauth htime ha hfunds =>
    obtain rfl : b.bookingId = n := hk.bookingId hb
    refine h.commit_subject [b.payout a env.contract] hrec rfl rfl
      (booking?_withState (σ := s.escrow.pay _) hk hb .refunded live) rfl rfl rfl ?_
    intro a' ha'
    obtain rfl : a = a' := by simpa [ha] using ha'
    exact (htold _ b a _ hb ha hstate).refund
  | confirmVisit n b a live hb hstate hauth htime ha hfunds =>
    obtain rfl : b.bookingId = n := hk.bookingId hb
    refine h.commit_subject [b.payout a env.contract] hrec rfl rfl
      (booking?_withState (σ := s.escrow.pay _) hk hb .released live) rfl rfl rfl ?_
    intro a' ha'
    obtain rfl : a = a' := by simpa [ha] using ha'
    exact (htold _ b a _ hb ha hstate).release

variable {d : Deployment}

theorem chronicled_step (s : Ledger) (a : Action) (s' : Ledger) (h : Chronicled d.contract s)
    (hstep : ledgerStep d s a = some s') : Chronicled d.contract s' := by
  have hrec := recorded_step s a s' h.recorded hstep
  rcases ledgerStep_cases h.recorded.solvent.keyed hstep with ⟨t, q, -, -, -, rfl⟩ | ⟨m, -, rfl⟩ |
    ⟨hash, auths, acc, call, σ, -, hself, -, heff, rfl⟩ | ⟨-, -, -, -, -, -, -, rfl⟩
  · exact ⟨hrec, h.untold, h.told⟩
  · exact ⟨hrec, h.untold, h.told⟩
  · exact heff.chronicled h rfl rfl hself
  · exact h

/-! ## When a booking was funded -/

/-- The booking `n` is funded now. -/
def Ledger.Holds (s : Ledger) (n : UInt64) : Prop :=
  ∃ b, s.escrow.booking? n = some b ∧ b.state = .funded

/-- A funding event was published for booking `n`. -/
def Ledger.HasFunded (s : Ledger) (n : UInt64) : Prop :=
  ∃ e ∈ s.escrow.events, ∃ amount, e.event = .bookingFunded n amount

/-- A funding event is published by a call of `fund_booking` on a booking in state `Created`. -/
theorem Effect.funds {env : Env} {s : Ledger} {call : Call} {σ : Escrow} {n : UInt64}
    (hk : s.escrow.Keyed) (heff : Effect env s.escrow call σ) (hbefore : ¬ s.HasFunded n)
    (hafter : (s.commit env.auths call σ).HasFunded n) :
    ∃ b, call = .fundBooking b.renter n ∧ s.escrow.booking? n = some b ∧ b.state = .created ∧
      σ.booking? n = some (b.withState .funded) := by
  obtain ⟨e, he, amount, hevent⟩ := hafter
  have hnew : e ∉ s.escrow.events := fun hold => hbefore ⟨e, hold, amount, hevent⟩
  -- the event is the one that the call published
  have hlast : ∀ {log event}, σ.events = log ++ [⟨env.txHash, env.sequence, event⟩] →
      log = s.escrow.events → event = .bookingFunded n amount := by
    intro log event hlog hsame
    rw [commit_escrow, hlog, hsame, List.mem_append, List.mem_singleton] at he
    rcases he with he | rfl
    · exact absurd he hnew
    · exact hevent
  cases heff with
  | initializeEscrow => exact absurd he hnew
  | booking => exact absurd he hnew
  | fundBooking m b a live hb hstate =>
    cases hlast rfl rfl
    refine ⟨b, rfl, hb, hstate, ?_⟩
    rw [booking?_publish, booking?_withState (σ := s.escrow.pay _) hk hb .funded live, if_pos rfl]
  | _ => cases hlast rfl rfl

theorem funds_step (s : Ledger) (a : Action) (s' : Ledger) (h : Chronicled d.contract s) {n : UInt64}
    (hbefore : ¬ s.HasFunded n) (hstep : ledgerStep d s a = some s') (hafter : s'.HasFunded n) :
    ∃ hash auths acc b, a = .invoke hash auths acc (.fundBooking b.renter n) ∧
      s.escrow.booking? n = some b ∧ b.state = .created ∧
      s'.escrow.booking? n = some (b.withState .funded) := by
  have hk := h.recorded.solvent.keyed
  rcases ledgerStep_cases hk hstep with ⟨t, q, -, -, -, rfl⟩ | ⟨m, -, rfl⟩ |
    ⟨hash, auths, acc, call, σ, rfl, hself, -, heff, rfl⟩ | ⟨-, -, -, -, -, -, -, rfl⟩
  · exact absurd hafter hbefore
  · exact absurd hafter hbefore
  · obtain ⟨b, rfl, hb, hstate, hb'⟩ := heff.funds hk hbefore hafter
    exact ⟨hash, auths, acc, b, rfl, hb, hstate, hb'⟩
  · exact absurd hafter hbefore

/-- A booking with a funding event was funded at some point of the run. -/
theorem funded_in_run {s₀ s : Ledger} {as : List Action} (h₀ : Fresh d s₀)
    (hrun : (ledgerMachine d).exec s₀ as = some s) {n : UInt64} (hfunded : s.HasFunded n) :
    ∃ t ∈ (ledgerMachine d).visited s₀ as, t.Holds n := by
  refine (ledgerMachine d).visited_of_crossing (G := fun l => l.HasFunded n)
    chronicled_step ?_ hrun (chronicled_of_fresh h₀) ?_ hfunded
  · intro s a s' h hbefore hstep hafter
    obtain ⟨-, -, -, b, -, -, -, hb'⟩ := funds_step s a s' h hbefore hstep hafter
    exact ⟨_, hb', rfl⟩
  · rintro ⟨e, he, -⟩
    rw [h₀.events] at he
    cases he

/-! ## From one event to the booking -/

section Readings

variable {contract : Address} {s : Ledger} (h : Chronicled contract s) {n : UInt64}
include h

theorem Chronicled.booking_of_event {e : LoggedEvent} (he : e ∈ s.escrow.events)
    (hid : e.event.bookingId = n) : ∃ b a, s.escrow.booking? n = some b ∧
      s.escrow.asset = some a ∧ e ∈ eventsOf n s.escrow.events := by
  have hmem : e ∈ eventsOf n s.escrow.events := List.mem_filter.mpr ⟨he, by simpa using hid⟩
  cases hb : s.escrow.booking? n with
  | none =>
    rw [h.untold n hb] at hmem
    cases hmem
  | some b =>
    obtain ⟨a, ha⟩ := h.recorded.solvent.asset_set n b hb
    exact ⟨b, a, rfl, ha, hmem⟩

/-- Two entries of the log with one event about a booking are the same entry. -/
theorem Chronicled.unique {e e' : LoggedEvent} (he : e ∈ s.escrow.events)
    (he' : e' ∈ s.escrow.events) (hsame : e'.event = e.event) : e' = e := by
  obtain ⟨b, a, hb, ha, hmem⟩ := h.booking_of_event he rfl
  have hmem' : e' ∈ eventsOf e.event.bookingId s.escrow.events :=
    List.mem_filter.mpr ⟨he', by simp [hsame]⟩
  exact List.inj_on_of_nodup_map (h.told _ b a hb ha).once hmem' hmem hsame

end Readings

end PovDeposit.Contract
