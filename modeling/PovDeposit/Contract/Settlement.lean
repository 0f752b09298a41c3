/-
  One settlement per booking, only to its renter.

  The receipts of a run say which committed calls named a booking, who authorised them, when
  they ran and which tokens they moved. `Settlement` relates them to the stored booking: the
  state says exactly which transfers have happened, every funding and cancellation carried
  the renter's authorisation, every release the host's, cancellations came strictly before
  the visit time and releases not before it.

  `Recorded` is the invariant of the whole ledger: a stored booking has its `Settlement`, an
  id that is not stored was never named, and every transfer of the escrow is in a receipt.
  `Effect.recorded` is the step lemma, `recorded_of_exec` the run lemma.
-/
import PovDeposit.Contract.Solvency

namespace PovDeposit.Contract

open PovDeposit.Lib PovDeposit.Lib.Outcome

/-- The moves a booking's state can make. -/
inductive BookingState.Edge : BookingState → BookingState → Prop where
  | fund : Edge .created .funded
  | withdraw : Edge .created .refunded
  | refund : Edge .funded .refunded
  | release : Edge .funded .released

/-- Two versions of one booking: everything but the state agrees. -/
structure Booking.SameTerms (b b' : Booking) : Prop where
  bookingId : b'.bookingId = b.bookingId
  renter : b'.renter = b.renter
  host : b'.host = b.host
  depositAmount : b'.depositAmount = b.depositAmount
  visitTime : b'.visitTime = b.visitTime

theorem sameTerms_refl (b : Booking) : b.SameTerms b := ⟨rfl, rfl, rfl, rfl, rfl⟩

theorem sameTerms_withState (b : Booking) (state : BookingState) :
    b.SameTerms (b.withState state) := ⟨rfl, rfl, rfl, rfl, rfl⟩

theorem Booking.SameTerms.trans {b₁ b₂ b₃ : Booking} (h : b₁.SameTerms b₂)
    (h' : b₂.SameTerms b₃) : b₁.SameTerms b₃ :=
  ⟨h'.bookingId.trans h.bookingId, h'.renter.trans h.renter, h'.host.trans h.host,
    h'.depositAmount.trans h.depositAmount, h'.visitTime.trans h.visitTime⟩

/-- The booking a call writes, if it commits. -/
def Call.subject : Call → Option UInt64
  | .createBooking n _ _ _ _ => some n
  | .fundBooking _ n => some n
  | .cancelBooking _ n => some n
  | .confirmVisit _ n => some n
  | .initializeEscrow _ _ => none
  | .booking _ => none

/-- The token movements made for booking `n`, in order. -/
def transfersOf (n : UInt64) (rs : List Receipt) : List Transfer :=
  (rs.filter fun r => r.call.subject = some n).flatMap Receipt.transfers

theorem transfersOf_concat (n : UInt64) (rs : List Receipt) (r : Receipt) :
    transfersOf n (rs ++ [r]) =
      transfersOf n rs ++ if r.call.subject = some n then r.transfers else [] := by
  unfold transfersOf
  rw [List.filter_append, List.flatMap_append]
  split
  · rename_i h
    simp [h]
  · rename_i h
    simp [h]

/-- The transfers that a booking in a given state has behind it. -/
def TransfersMatch (contract asset : Address) (b : Booking) (ts : List Transfer) : Prop :=
  match b.state with
  | .created => ts = []
  | .funded => ts = [b.deposit asset contract]
  | .released => ts = [b.deposit asset contract, b.payout asset contract]
  | .refunded => ts = [] ∨ ts = [b.deposit asset contract, b.payout asset contract]

/-- A committed call on booking `n` was made and authorised by the party it takes, at a
    time its rule allows. -/
def Receipt.Proper (n : UInt64) (b : Booking) (r : Receipt) : Prop :=
  match r.call with
  | .fundBooking renter m => m = n → renter = b.renter ∧ b.renter ∈ r.auths
  | .cancelBooking renter m =>
      m = n → renter = b.renter ∧ b.renter ∈ r.auths ∧ r.timestamp < b.visitTime
  | .confirmVisit host m =>
      m = n → host = b.host ∧ b.host ∈ r.auths ∧ b.visitTime ≤ r.timestamp
  | _ => True

/-- What the receipts `rs` show about the stored booking `b` with id `n`. -/
structure Settlement (contract asset : Address) (rs : List Receipt) (n : UInt64) (b : Booking) :
    Prop where
  transfers : TransfersMatch contract asset b (transfersOf n rs)
  proper : ∀ r ∈ rs, r.Proper n b

theorem proper_of_subject_ne {n : UInt64} {b : Booking} {r : Receipt}
    (h : r.call.subject ≠ some n) : r.Proper n b := by
  unfold Receipt.Proper
  split <;> simp_all [Call.subject]

section Receipts

variable {contract asset : Address} {rs : List Receipt} {n : UInt64} {b : Booking} {r : Receipt}

/-- A call on another booking changes nothing. -/
theorem Settlement.append_other (h : Settlement contract asset rs n b)
    (hr : r.call.subject ≠ some n) : Settlement contract asset (rs ++ [r]) n b := by
  refine ⟨?_, fun r' hr' => ?_⟩
  · rw [transfersOf_concat, if_neg hr, List.append_nil]
    exact h.transfers
  · rcases List.mem_append.mp hr' with hold | hnew
    · exact h.proper r' hold
    · rw [List.mem_singleton.mp hnew]
      exact proper_of_subject_ne hr

/-- A call on this booking that moves it to `state`. -/
theorem Settlement.append (h : Settlement contract asset rs n b) (state : BookingState)
    (hsub : r.call.subject = some n) (hproper : r.Proper n b)
    (htr : TransfersMatch contract asset (b.withState state)
      (transfersOf n rs ++ r.transfers)) :
    Settlement contract asset (rs ++ [r]) n (b.withState state) := by
  refine ⟨?_, fun r' hr' => ?_⟩
  · rw [transfersOf_concat, if_pos hsub]
    exact htr
  · rcases List.mem_append.mp hr' with hold | hnew
    · exact h.proper r' hold
    · rw [List.mem_singleton.mp hnew]
      exact hproper

end Receipts

/-! ## The invariant -/

structure Recorded (contract : Address) (s : Ledger) : Prop where
  solvent : Solvent contract s.escrow
  unnamed : ∀ n, s.escrow.booking? n = none → ∀ r ∈ s.receipts, r.call.subject ≠ some n
  settled : ∀ n b a, s.escrow.booking? n = some b → s.escrow.asset = some a →
    Settlement contract a s.receipts n b
  transfers : s.escrow.transfers = s.receipts.flatMap Receipt.transfers
  subject : ∀ r ∈ s.receipts, r.call.subject = none → r.transfers = []

theorem recorded_of_fresh {d : Deployment} {s : Ledger} (h : Fresh d s) :
    Recorded d.contract s := by
  refine ⟨solvent_of_fresh h, ?_, ?_, ?_, ?_⟩
  · simp [h.receipts]
  · intro n b a _ ha
    rw [h.asset] at ha
    cases ha
  · rw [h.transfers, h.receipts]
    rfl
  · simp [h.receipts]

/-- An id that is free was never named, so no token moved for it. -/
theorem Recorded.transfersOf_of_none {contract : Address} {s : Ledger} (h : Recorded contract s)
    {n : UInt64} (hnone : s.escrow.booking? n = none) : transfersOf n s.receipts = [] := by
  unfold transfersOf
  rw [List.filter_eq_nil_iff.mpr fun r hr => by simpa using h.unnamed n hnone r hr]
  rfl

theorem Recorded.transfers_commit {contract : Address} {s : Ledger} (h : Recorded contract s)
    (auths : List Address) (call : Call) {σ : Escrow} (ts : List Transfer)
    (hts : σ.transfers = s.escrow.transfers ++ ts) :
    σ.transfers = (s.commit auths call σ).receipts.flatMap Receipt.transfers := by
  have hdrop : σ.transfers.drop s.escrow.transfers.length = ts := by
    rw [hts, List.drop_left]
  rw [hts, h.transfers]
  simp only [Ledger.commit, List.flatMap_append, List.flatMap_cons, List.flatMap_nil,
    List.append_nil, hdrop]

/-- A committed call that writes booking `n`, leaving `b'` there and moving `ts`. -/
theorem Recorded.commit_subject {contract : Address} {s : Ledger} (h : Recorded contract s)
    {auths : List Address} {call : Call} {σ : Escrow} {n : UInt64} {b' : Booking}
    (ts : List Transfer) (hsub : call.subject = some n) (hsolvent : Solvent contract σ)
    (hasset : σ.asset = s.escrow.asset)
    (hbooking : ∀ m, σ.booking? m = if m = n then some b' else s.escrow.booking? m)
    (hts : σ.transfers = s.escrow.transfers ++ ts)
    (hset : ∀ a r, s.escrow.asset = some a → r.call = call → r.auths = auths →
      r.timestamp = s.timestamp → r.transfers = ts →
      Settlement contract a (s.receipts ++ [r]) n b') :
    Recorded contract (s.commit auths call σ) := by
  have hdrop : σ.transfers.drop s.escrow.transfers.length = ts := by
    rw [hts, List.drop_left]
  refine ⟨hsolvent, ?_, ?_, ?_, ?_⟩
  · intro m hm r hr
    have hmn : m ≠ n := by
      rintro rfl
      simp only [Ledger.commit, hbooking, if_pos] at hm
      cases hm
    simp only [Ledger.commit, hbooking, if_neg hmn] at hm
    rcases List.mem_append.mp hr with hold | hnew
    · exact h.unnamed m hm r hold
    · rw [List.mem_singleton.mp hnew]
      show call.subject ≠ some m
      rw [hsub]
      simpa using hmn.symm
  · intro m b a hb ha
    simp only [Ledger.commit, hbooking] at hb
    have ha' : s.escrow.asset = some a := hasset.symm.trans ha
    split at hb
    · rename_i hmn
      cases hb
      subst hmn
      exact hset a _ ha' rfl rfl rfl hdrop
    · rename_i hmn
      refine (h.settled m b a hb ha').append_other ?_
      show call.subject ≠ some m
      rw [hsub]
      simpa using Ne.symm hmn
  · exact h.transfers_commit auths call ts hts
  · intro r hr hn
    rcases List.mem_append.mp hr with hold | hnew
    · exact h.subject r hold hn
    · rw [List.mem_singleton.mp hnew] at hn
      exact absurd (hsub.symm.trans hn) (by simp)

/-- A committed call that writes no booking. -/
theorem Recorded.commit_plain {contract : Address} {s : Ledger} (h : Recorded contract s)
    {auths : List Address} {call : Call} {σ : Escrow} (hsub : call.subject = none)
    (hsolvent : Solvent contract σ)
    (hasset : ∀ n b, s.escrow.booking? n = some b → σ.asset = s.escrow.asset)
    (hbooking : ∀ m, σ.booking? m = s.escrow.booking? m)
    (hts : σ.transfers = s.escrow.transfers) : Recorded contract (s.commit auths call σ) := by
  have hdrop : σ.transfers.drop s.escrow.transfers.length = [] := by
    rw [hts, List.drop_length]
  refine ⟨hsolvent, ?_, ?_, ?_, ?_⟩
  · intro m hm r hr
    rcases List.mem_append.mp hr with hold | hnew
    · exact h.unnamed m ((hbooking m).symm.trans hm) r hold
    · rw [List.mem_singleton.mp hnew]
      show call.subject ≠ some m
      rw [hsub]
      simp
  · intro m b a hb ha
    have hb' : s.escrow.booking? m = some b := (hbooking m).symm.trans hb
    refine (h.settled m b a hb' ((hasset m b hb').symm.trans ha)).append_other ?_
    show call.subject ≠ some m
    rw [hsub]
    simp
  · exact h.transfers_commit auths call [] (hts.trans (List.append_nil _).symm)
  · intro r hr hn
    rcases List.mem_append.mp hr with hold | hnew
    · exact h.subject r hold hn
    · rw [List.mem_singleton.mp hnew]
      exact hdrop

/-- What is stored under each id after a booking moved to another state. -/
theorem booking?_withState {σ : Escrow} (hk : σ.Keyed) {n : UInt64} {b : Booking}
    (hb : σ.booking? n = some b) (state : BookingState) (l : Nat) (m : UInt64) :
    (σ.store (b.withState state) l).booking? m =
      if m = n then some (b.withState state) else σ.booking? m := by
  rw [booking?_store, withState_bookingId, hk.bookingId hb]

/-- Writing a booking back changes nothing but the entry's lifetime. -/
theorem booking?_store_same {σ : Escrow} (hk : σ.Keyed) {n : UInt64} {b : Booking}
    (hb : σ.booking? n = some b) (l : Nat) (m : UInt64) :
    (σ.store b l).booking? m = σ.booking? m := by
  rw [booking?_store, hk.bookingId hb]
  split
  · rename_i hm
    rw [hm, hb]
  · rfl

/-- A committed call that moves booking `n` to `state` by the token movements `ts`. -/
theorem Recorded.commit_move {contract : Address} {s : Ledger} (h : Recorded contract s)
    {auths : List Address} {call : Call} {σ : Escrow} {n : UInt64} {b : Booking}
    (hb : s.escrow.booking? n = some b) (state : BookingState) (ts : List Transfer)
    (hsub : call.subject = some n) (hsolvent : Solvent contract σ)
    (hasset : σ.asset = s.escrow.asset)
    (hbooking : ∀ m, σ.booking? m = if m = n then some (b.withState state) else s.escrow.booking? m)
    (hts : σ.transfers = s.escrow.transfers ++ ts)
    (hproper : ∀ r : Receipt, r.call = call → r.auths = auths → r.timestamp = s.timestamp →
      r.Proper n b)
    (hmatch : ∀ a past, s.escrow.asset = some a → TransfersMatch contract a b past →
      TransfersMatch contract a (b.withState state) (past ++ ts)) :
    Recorded contract (s.commit auths call σ) := by
  refine h.commit_subject ts hsub hsolvent hasset hbooking hts ?_
  intro a r ha hcall hauths htime htr
  have hset := h.settled n b a hb ha
  refine hset.append state (by rw [hcall, hsub]) (hproper r hcall hauths htime) ?_
  rw [htr]
  exact hmatch a _ ha hset.transfers

/-- A committed call keeps the record. -/
theorem Effect.recorded {contract : Address} {s : Ledger} (h : Recorded contract s) {env : Env}
    {call : Call} {σ : Escrow} (hcontract : env.contract = contract)
    (htimestamp : env.timestamp = s.timestamp) (hself : contract ∉ env.auths)
    (heff : Effect env s.escrow call σ) : Recorded contract (s.commit env.auths call σ) := by
  subst hcontract
  have hsolvent := heff.solvent h.solvent hself
  have hk := h.solvent.keyed
  cases heff with
  | initializeEscrow admin a live hnone hauth =>
    exact h.commit_plain rfl hsolvent
      (fun n b hb => absurd hb (h.solvent.booking?_of_unset hnone n b)) (fun _ => rfl) rfl
  | createBooking n renter host amount visitTime a live ha hnew hparties hmin hmax htime hauth =>
    refine h.commit_subject [] rfl hsolvent rfl (fun m => booking?_store _ _ _ m) (by simp) ?_
    intro a' r _ hcall _ _ htr
    refine ⟨?_, fun r' hr' => ?_⟩
    · show transfersOf n (s.receipts ++ [r]) = []
      rw [transfersOf_concat, h.transfersOf_of_none hnew, htr]
      simp
    · rcases List.mem_append.mp hr' with hold | hlast
      · exact proper_of_subject_ne (h.unnamed n hnew r' hold)
      · rw [List.mem_singleton.mp hlast, Receipt.Proper, hcall]
        trivial
  | booking n b live hb =>
    exact h.commit_plain rfl hsolvent (fun _ _ _ => rfl) (booking?_store_same hk hb live) rfl
  | fundBooking n b a live hb hstate hauth ha hfunds =>
    refine h.commit_move hb .funded [b.deposit a env.contract] rfl hsolvent rfl
      (booking?_withState (σ := s.escrow.pay _) hk hb .funded live) rfl ?_ ?_
    · intro r hcall hauths _
      rw [Receipt.Proper, hcall]
      exact fun _ => ⟨rfl, hauths ▸ hauth⟩
    · intro a' past ha' hpast
      obtain rfl : a = a' := Option.some.inj (ha.symm.trans ha')
      rw [TransfersMatch, hstate] at hpast
      rw [hpast]
      rfl
  | cancelUnfunded n b live hb hstate hauth htime =>
    refine h.commit_move hb .refunded [] rfl hsolvent rfl (booking?_withState hk hb .refunded live)
      (by simp) ?_ ?_
    · intro r hcall hauths hts
      rw [Receipt.Proper, hcall]
      exact fun _ => ⟨rfl, hauths ▸ hauth, by rw [hts, ← htimestamp]; exact htime⟩
    · intro a past _ hpast
      rw [TransfersMatch, hstate] at hpast
      rw [hpast]
      exact .inl rfl
  | cancelFunded n b a live hb hstate hauth htime ha hfunds =>
    refine h.commit_move hb .refunded [b.payout a env.contract] rfl hsolvent rfl
      (booking?_withState (σ := s.escrow.pay _) hk hb .refunded live) rfl ?_ ?_
    · intro r hcall hauths hts
      rw [Receipt.Proper, hcall]
      exact fun _ => ⟨rfl, hauths ▸ hauth, by rw [hts, ← htimestamp]; exact htime⟩
    · intro a' past ha' hpast
      obtain rfl : a = a' := Option.some.inj (ha.symm.trans ha')
      rw [TransfersMatch, hstate] at hpast
      rw [hpast]
      exact .inr rfl
  | confirmVisit n b a live hb hstate hauth htime ha hfunds =>
    refine h.commit_move hb .released [b.payout a env.contract] rfl hsolvent rfl
      (booking?_withState (σ := s.escrow.pay _) hk hb .released live) rfl ?_ ?_
    · intro r hcall hauths hts
      rw [Receipt.Proper, hcall]
      exact fun _ => ⟨rfl, hauths ▸ hauth, by rw [hts, ← htimestamp]; exact htime⟩
    · intro a' past ha' hpast
      obtain rfl : a = a' := Option.some.inj (ha.symm.trans ha')
      rw [TransfersMatch, hstate] at hpast
      rw [hpast]
      rfl

variable {d : Deployment}

theorem recorded_step (s : Ledger) (a : Action) (s' : Ledger) (h : Recorded d.contract s)
    (hstep : ledgerStep d s a = some s') : Recorded d.contract s' := by
  rcases ledgerStep_cases h.solvent.keyed hstep with ⟨t, q, -, -, -, rfl⟩ | ⟨m, -, rfl⟩ |
    ⟨hash, auths, acc, call, σ, -, hself, -, heff, rfl⟩ | ⟨-, -, -, -, -, -, -, rfl⟩
  · exact ⟨h.solvent, h.unnamed, h.settled, h.transfers, h.subject⟩
  · refine ⟨?_, h.unnamed, h.settled, h.transfers, h.subject⟩
    exact solvent_step s a _ h.solvent hstep
  · exact heff.recorded h rfl rfl hself
  · exact h

theorem recorded_of_exec {s₀ s : Ledger} {as : List Action} (h₀ : Fresh d s₀)
    (hrun : (ledgerMachine d).exec s₀ as = some s) : Recorded d.contract s :=
  (ledgerMachine d).exec_invariant recorded_step hrun (recorded_of_fresh h₀)

/-! ## How one booking moves -/

/-- A committed call leaves every booking in its state or moves it along an edge. -/
theorem Effect.edge {env : Env} {σ σ' : Escrow} {call : Call} (heff : Effect env σ call σ')
    (hk : σ.Keyed) {n : UInt64} {b : Booking} (hb : σ.booking? n = some b) :
    ∃ b', σ'.booking? n = some b' ∧ b.SameTerms b' ∧
      (b'.state = b.state ∨ b.state.Edge b'.state) := by
  -- every case writes one booking; the others stay
  have hwrite : ∀ m x (state : BookingState) l, σ.booking? m = some x →
      (x.state = state ∨ x.state.Edge state) →
      ∃ b', (σ.store (x.withState state) l).booking? n = some b' ∧ b.SameTerms b' ∧
        (b'.state = b.state ∨ b.state.Edge b'.state) := by
    intro m x state l hx hedge
    rw [booking?_withState hk hx]
    split
    · rename_i hnm
      rw [hnm, hx] at hb
      cases hb
      exact ⟨_, rfl, sameTerms_withState _ _, hedge.imp Eq.symm id⟩
    · exact ⟨b, hb, sameTerms_refl b, .inl rfl⟩
  cases heff with
  | initializeEscrow => exact ⟨b, hb, sameTerms_refl b, .inl rfl⟩
  | createBooking m renter host amount visitTime a live ha hnew =>
    have hnm : n ≠ m := by
      rintro rfl
      rw [hnew] at hb
      cases hb
    refine ⟨b, ?_, sameTerms_refl b, .inl rfl⟩
    rw [booking?_publish, booking?_store, if_neg hnm]
    exact hb
  | booking m x live hx => exact hwrite m x x.state live hx (.inl rfl)
  | fundBooking m x a live hx hstate =>
    exact hwrite m x .funded live hx (.inr (hstate ▸ .fund))
  | cancelUnfunded m x live hx hstate =>
    exact hwrite m x .refunded live hx (.inr (hstate ▸ .withdraw))
  | cancelFunded m x a live hx hstate =>
    exact hwrite m x .refunded live hx (.inr (hstate ▸ .refund))
  | confirmVisit m x a live hx hstate =>
    exact hwrite m x .released live hx (.inr (hstate ▸ .release))

/-- A booking stored after a committed call was stored before it, or is what that call of
    `createBooking` asked for. -/
theorem Effect.origin {env : Env} {σ σ' : Escrow} {call : Call} (heff : Effect env σ call σ')
    (hk : σ.Keyed) {n : UInt64} {b' : Booking} (hb' : σ'.booking? n = some b') :
    (∃ b, σ.booking? n = some b ∧ b.SameTerms b' ∧
      (b'.state = b.state ∨ b.state.Edge b'.state)) ∨
    (σ.booking? n = none ∧
      call = .createBooking n b'.renter b'.host b'.depositAmount b'.visitTime ∧
      b'.state = .created ∧ minDeposit ≤ b'.depositAmount ∧ b'.renter ∈ env.auths) := by
  cases hold : σ.booking? n with
  | some b =>
    obtain ⟨x, hx, hterms, hedge⟩ := heff.edge hk hold
    obtain rfl : b' = x := by simpa [hb'] using hx
    exact .inl ⟨b, rfl, hterms, hedge⟩
  | none =>
    refine .inr ⟨rfl, ?_⟩
    -- a call on a stored booking stores no new id
    have hkeep : ∀ m x (state : BookingState) l, σ.booking? m = some x →
        (σ.store (x.withState state) l).booking? n ≠ some b' := by
      intro m x state l hx hstore
      rw [booking?_withState hk hx] at hstore
      split at hstore
      · rename_i hnm
        rw [← hnm, hold] at hx
        cases hx
      · rw [hold] at hstore
        cases hstore
    cases heff with
    | initializeEscrow => exact absurd (hold.symm.trans hb') (by simp)
    | createBooking m renter host amount visitTime a live ha hnew hparties hmin hmax htime hauth =>
      rw [booking?_publish, booking?_store] at hb'
      split at hb'
      · rename_i hnm
        cases hb'
        obtain rfl : n = m := hnm
        exact ⟨rfl, rfl, hmin, hauth⟩
      · exact absurd (hold.symm.trans hb') (by simp)
    | booking m x live hx => exact absurd hb' (hkeep m x x.state live hx)
    | fundBooking m x a live hx => exact absurd hb' (hkeep m x .funded live hx)
    | cancelUnfunded m x live hx => exact absurd hb' (hkeep m x .refunded live hx)
    | cancelFunded m x a live hx => exact absurd hb' (hkeep m x .refunded live hx)
    | confirmVisit m x a live hx => exact absurd hb' (hkeep m x .released live hx)

theorem edge_step (s : Ledger) (a : Action) (s' : Ledger) (hk : s.escrow.Keyed)
    (hstep : ledgerStep d s a = some s') {n : UInt64} {b : Booking}
    (hb : s.escrow.booking? n = some b) :
    ∃ b', s'.escrow.booking? n = some b' ∧ b.SameTerms b' ∧
      (b'.state = b.state ∨ b.state.Edge b'.state) := by
  rcases ledgerStep_cases hk hstep with ⟨t, q, -, -, -, rfl⟩ | ⟨m, -, rfl⟩ |
    ⟨hash, auths, acc, call, σ, -, hself, -, heff, rfl⟩ | ⟨-, -, -, -, -, -, -, rfl⟩
  · exact ⟨b, hb, sameTerms_refl b, .inl rfl⟩
  · exact ⟨b, hb, sameTerms_refl b, .inl rfl⟩
  · exact heff.edge hk hb
  · exact ⟨b, hb, sameTerms_refl b, .inl rfl⟩

/-- Along a run a booking keeps its terms and its state moves along edges. -/
theorem edges_exec {s s' : Ledger} {as : List Action} (h : Recorded d.contract s)
    (hrun : (ledgerMachine d).exec s as = some s') {n : UInt64} {b : Booking}
    (hb : s.escrow.booking? n = some b) :
    ∃ b', s'.escrow.booking? n = some b' ∧ b.SameTerms b' ∧
      Relation.ReflTransGen BookingState.Edge b.state b'.state := by
  refine ((ledgerMachine d).exec_invariant (I := fun s => Recorded d.contract s ∧
    ∃ b', s.escrow.booking? n = some b' ∧ b.SameTerms b' ∧
      Relation.ReflTransGen BookingState.Edge b.state b'.state) ?_ hrun
    ⟨h, b, hb, sameTerms_refl b, .refl⟩).2
  rintro s a s' ⟨hs, x, hx, hterms, hedges⟩ hstep
  refine ⟨recorded_step s a s' hs hstep, ?_⟩
  obtain ⟨y, hy, hterms', hedge⟩ := edge_step s a s' hs.solvent.keyed hstep hx
  refine ⟨y, hy, hterms.trans hterms', ?_⟩
  rcases hedge with heq | hedge
  · rw [heq]
    exact hedges
  · exact hedges.tail hedge

/-- A stored id cannot be created again. -/
theorem createBooking_stored {env : Env} {σ : Escrow} (hk : σ.Keyed) {n : UInt64} {b : Booking}
    (hb : σ.booking? n = some b) (renter host : Address) (amount : Int) (visitTime : UInt64)
    (σ' : Escrow) : invoke env σ (.createBooking n renter host amount visitTime) ≠ .ok σ' := by
  intro h
  cases effect_of_invoke hk h with
  | createBooking _ _ _ _ _ a live ha hnew =>
    rw [hnew] at hb
    cases hb

/-- Every transfer out of the escrow is the payout of a booking to its renter. -/
theorem Recorded.payout {contract : Address} {s : Ledger} (h : Recorded contract s) {t : Transfer}
    (ht : t ∈ s.escrow.transfers) (hsender : t.sender = contract) :
    ∃ n b a, s.escrow.booking? n = some b ∧ s.escrow.asset = some a ∧
      t ∈ transfersOf n s.receipts ∧ t = b.payout a contract := by
  rw [h.transfers] at ht
  obtain ⟨r, hr, htr⟩ := List.mem_flatMap.mp ht
  cases hsub : r.call.subject with
  | none =>
    rw [h.subject r hr hsub] at htr
    cases htr
  | some n =>
    cases hb : s.escrow.booking? n with
    | none => exact absurd hsub (h.unnamed n hb r hr)
    | some b =>
      obtain ⟨a, ha⟩ := h.solvent.asset_set n b hb
      have hmem : t ∈ transfersOf n s.receipts :=
        List.mem_flatMap.mpr ⟨r, List.mem_filter.mpr ⟨hr, by simpa using hsub⟩, htr⟩
      refine ⟨n, b, a, hb, ha, hmem, ?_⟩
      -- a deposit is sent by the renter, who is not the escrow
      have hdep : t ≠ b.deposit a contract := by
        rintro rfl
        exact h.solvent.not_self n b hb hsender
      have hmatch := (h.settled n b a hb ha).transfers
      unfold TransfersMatch at hmatch
      split at hmatch
      · rw [hmatch] at hmem
        cases hmem
      · rw [hmatch] at hmem
        exact absurd (List.mem_singleton.mp hmem) hdep
      · rw [hmatch] at hmem
        simpa [hdep] using hmem
      · rcases hmatch with hmatch | hmatch
        · rw [hmatch] at hmem
          cases hmem
        · rw [hmatch] at hmem
          simpa [hdep] using hmem

/-- **One settlement per booking, only to its renter.** After any run from a fresh
    deployment, for every booking id `n`: the stored terms stay as they are and the state only
    moves along `Edge`, now and later; the id cannot be created again; an id that is not
    stored was never named by a committed call; the receipts naming `n` are the ones its
    state stands for. All token movements of the contract are in receipts, and those that
    leave the escrow are payouts of bookings to their renters. -/
theorem one_settlement (s₀ s : Ledger) (as : List Action) (h₀ : Fresh d s₀)
    (hrun : (ledgerMachine d).exec s₀ as = some s) (n : UInt64) :
    (∀ b bs t, s.escrow.booking? n = some b → (ledgerMachine d).exec s bs = some t →
      ∃ b', t.escrow.booking? n = some b' ∧ b.SameTerms b' ∧
        Relation.ReflTransGen BookingState.Edge b.state b'.state) ∧
    (∀ b a t b', s.escrow.booking? n = some b → ledgerStep d s a = some t →
      t.escrow.booking? n = some b' → b'.state = b.state ∨ b.state.Edge b'.state) ∧
    (∀ b hash auths acc renter host amount visitTime σ, s.escrow.booking? n = some b →
      invoke (s.env d hash auths acc) s.escrow
        (.createBooking n renter host amount visitTime) ≠ .ok σ) ∧
    (s.escrow.booking? n = none → ∀ r ∈ s.receipts, r.call.subject ≠ some n) ∧
    (∀ b, s.escrow.booking? n = some b → b.bookingId = n ∧
      ∃ a, s.escrow.asset = some a ∧ Settlement d.contract a s.receipts n b) ∧
    s.escrow.transfers = s.receipts.flatMap Receipt.transfers ∧
    (∀ t ∈ s.escrow.transfers, t.sender = d.contract →
      ∃ m b a, s.escrow.booking? m = some b ∧ s.escrow.asset = some a ∧
        t ∈ transfersOf m s.receipts ∧ t = b.payout a d.contract) := by
  have h := recorded_of_exec h₀ hrun
  have hk := h.solvent.keyed
  refine ⟨fun b bs t hb hr => edges_exec h hr hb, ?_, ?_, h.unnamed n, ?_, h.transfers,
    fun t ht hsender => h.payout ht hsender⟩
  · intro b a t b' hb hstep hb'
    obtain ⟨x, hx, -, hedge⟩ := edge_step s a t hk hstep hb
    rw [hb', Option.some.injEq] at hx
    exact hx ▸ hedge
  · intro b hash auths acc renter host amount visitTime σ hb
    exact createBooking_stored hk hb renter host amount visitTime σ
  · intro b hb
    obtain ⟨a, ha⟩ := h.solvent.asset_set n b hb
    exact ⟨hk.bookingId hb, a, ha, h.settled n b a hb ha⟩

/-- `fundedRun`, then the visit time comes and the host confirms. -/
def releasedRun : List Action :=
  fundedRun ++ [.close 2000 9, .invoke "t3" ["host"] (fun _ _ _ _ => true) (.confirmVisit "host" 1)]

theorem one_settlement_released :
    ∃ s b, (ledgerMachine ⟨"escrow", 300000⟩).exec
        (freshLedger ⟨"escrow", 300000⟩ 1000 7 500000 fun _ _ => 10000000) releasedRun = some s ∧
      s.escrow.booking? 1 = some b ∧ b.state = .released ∧
      ∃ a, s.escrow.asset = some a ∧ Settlement "escrow" a s.receipts 1 b := by
  obtain ⟨s, b, hrun, hb, hstate⟩ : ∃ s b, (ledgerMachine ⟨"escrow", 300000⟩).exec
      (freshLedger ⟨"escrow", 300000⟩ 1000 7 500000 fun _ _ => 10000000) releasedRun = some s ∧
      s.escrow.booking? 1 = some b ∧ b.state = .released := ⟨_, _, rfl, rfl, rfl⟩
  have h := one_settlement _ s releasedRun (fresh_freshLedger _ _ _ _ _) hrun 1
  exact ⟨s, b, hrun, hb, hstate, (h.2.2.2.2.1 b hb).2⟩

end PovDeposit.Contract
