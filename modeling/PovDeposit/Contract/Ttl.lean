/-
  The time to live of the contract's entries.

  `readBooking` and `writeBooking` both extend the entry they touch, so a successful call on
  a booking leaves its entry alive for at least `ttlThreshold` more ledgers
  (`renewed_of_invoke`), and a booking called that often never expires. The instance entry,
  which holds the accepted asset and which every call needs, is extended by
  `initializeEscrow` and by nothing else. So an escrow in daily use dies with its first
  lease: `escrow_stays_alive_iff` says that the ledger number the instance entry is alive
  until after `initializeEscrow` is the exact limit.
-/
import PovDeposit.Contract.Settlement
import PovDeposit.Contract.Deadline
import PovDeposit.Lib.Lease

namespace PovDeposit.Contract

open PovDeposit.Lib PovDeposit.Lib.Outcome

/-- The booking whose entry a call needs. -/
def Call.entry? : Call → Option UInt64
  | .initializeEscrow _ _ => none
  | .createBooking bookingId _ _ _ _ => some bookingId
  | .booking bookingId => some bookingId
  | .fundBooking _ bookingId => some bookingId
  | .cancelBooking _ bookingId => some bookingId
  | .confirmVisit _ bookingId => some bookingId

theorem le_extendTtl (env : Env) (live : Nat) :
    env.sequence + ttlThreshold ≤ extendTtl env live ttlThreshold ttlExtendTo := by
  have hto : ttlThreshold ≤ ttlExtendTo := by decide
  have hpos : 0 < ttlThreshold := by decide
  unfold extendTtl
  split <;> omega

/-! ## What a committed call does to the live-until ledgers -/

/-- From `σ` to `σ'` the entry of booking `n` was renewed, and no other live-until ledger
    changed. -/
structure Renewed (env : Env) (n : UInt64) (σ σ' : Escrow) : Prop where
  entry : ∃ e, σ'.bookings.lookup n = some e ∧ env.sequence + ttlThreshold ≤ e.liveUntil
  others : ∀ m, m ≠ n → σ'.bookings.lookup m = σ.bookings.lookup m
  inst : σ'.instanceLiveUntil = σ.instanceLiveUntil

theorem renewed_readBooking {env : Env} {σ σ' : Escrow} {n : UInt64} {b : Booking}
    (h : readBooking env σ n = .ok (b, σ')) : Renewed env n σ σ' := by
  unfold readBooking at h
  split at h
  · cases h
  · rename_i e he
    obtain ⟨-, h⟩ := guard_eq_ok.mp h
    simp only [Except.ok.injEq, Prod.mk.injEq] at h
    obtain ⟨-, rfl⟩ := h
    exact ⟨⟨_, AList.lookup_insert _, le_extendTtl env _⟩,
      fun m hm => AList.lookup_insert_ne hm, rfl⟩

theorem renewed_writeBooking (env : Env) (σ : Escrow) (b : Booking) :
    Renewed env b.bookingId σ (writeBooking env σ b) := by
  unfold writeBooking
  exact ⟨⟨_, AList.lookup_insert _, le_extendTtl env _⟩,
    fun m hm => AList.lookup_insert_ne hm, rfl⟩

theorem Renewed.trans {env : Env} {n : UInt64} {σ₁ σ₂ σ₃ : Escrow} (h₁ : Renewed env n σ₁ σ₂)
    (h₂ : Renewed env n σ₂ σ₃) : Renewed env n σ₁ σ₃ :=
  ⟨h₂.entry, fun m hm => (h₂.others m hm).trans (h₁.others m hm), h₂.inst.trans h₁.inst⟩

/-- Token movements and events do not touch the entries. -/
theorem Renewed.transfer {env : Env} {n : UInt64} {σ₁ σ₂ σ₃ : Escrow} (h : Renewed env n σ₁ σ₂)
    {sender receiver : Address} {amount : Int}
    (hpay : transfer env σ₂ sender receiver amount = .ok σ₃) : Renewed env n σ₁ σ₃ := by
  obtain ⟨a, -, -, rfl⟩ := transfer_eq_ok hpay
  exact ⟨h.entry, h.others, h.inst⟩

theorem Renewed.publish {env : Env} {n : UInt64} {σ₁ σ₂ : Escrow} (h : Renewed env n σ₁ σ₂)
    (ev : ContractEvent) : Renewed env n σ₁ (publish env σ₂ ev) :=
  ⟨h.entry, h.others, h.inst⟩

/-- The last write of an entry point renews the entry it read. -/
theorem Renewed.write {env : Env} {n : UInt64} {σ₁ σ₂ : Escrow} (h : Renewed env n σ₁ σ₂)
    {b : Booking} (hid : b.bookingId = n) (state : BookingState) :
    Renewed env n σ₁ (writeBooking env σ₂ { b with state := state }) := by
  subst hid
  exact h.trans (renewed_writeBooking env σ₂ { b with state := state })

/-- A committed call on a booking renews its entry, and nothing else. -/
theorem renewed_of_invoke {env : Env} {σ σ' : Escrow} (hk : σ.Keyed) {call : Call}
    (h : invoke env σ call = .ok σ') {n : UInt64} (hn : call.entry? = some n) :
    Renewed env n σ σ' := by
  obtain ⟨-, h⟩ := guard_eq_ok.mp h
  cases call with
  | initializeEscrow admin a => cases hn
  | createBooking m renter host amount visitTime =>
    cases hn
    simp only [createBooking, bind_eq_ok, guard_eq_ok, pure_eq_ok] at h
    obtain ⟨-, -, -, -, -, -, -, -, rfl⟩ := h
    exact (renewed_writeBooking env σ ⟨n, renter, host, amount, visitTime, .created⟩).publish _
  | booking m =>
    cases hn
    obtain ⟨⟨b, σ₁⟩, hread, rfl⟩ := map_eq_ok.mp h
    exact renewed_readBooking hread
  | fundBooking renter m =>
    cases hn
    simp only [fundBooking, bind_eq_ok, guard_eq_ok, pure_eq_ok] at h
    obtain ⟨⟨b, σ₁⟩, hread, -, -, -, -, σ₂, hpay, rfl⟩ := h
    obtain ⟨-, hid, -⟩ := readBooking_eq_ok hk hread
    exact (((renewed_readBooking hread).transfer hpay).write hid .funded).publish _
  | cancelBooking renter m =>
    cases hn
    simp only [cancelBooking, bind_eq_ok, guard_eq_ok] at h
    obtain ⟨⟨b, σ₁⟩, hread, -, -, -, -, -, h⟩ := h
    obtain ⟨-, hid, -⟩ := readBooking_eq_ok hk hread
    have hrenewed := renewed_readBooking hread
    split at h
    · simp only [bind_eq_ok, pure_eq_ok] at h
      obtain ⟨σ₂, hpay, rfl⟩ := h
      exact ((hrenewed.transfer hpay).write hid .refunded).publish _
    · simp only [bind_eq_ok, pure_eq_ok, Except.ok.injEq, exists_eq_left'] at h
      subst h
      exact (hrenewed.write hid .refunded).publish _
  | confirmVisit host m =>
    cases hn
    simp only [confirmVisit, bind_eq_ok, guard_eq_ok, pure_eq_ok] at h
    obtain ⟨⟨b, σ₁⟩, hread, -, -, -, -, σ₂, hpay, rfl⟩ := h
    obtain ⟨-, hid, -⟩ := readBooking_eq_ok hk hread
    exact (((renewed_readBooking hread).transfer hpay).write hid .released).publish _

/-! ## When a call finds an expired entry -/

/-- The call needs an entry that has expired: the instance's, or that of its booking. -/
def NeedsExpired (env : Env) (σ : Escrow) (call : Call) : Prop :=
  σ.instanceLiveUntil < env.sequence ∨
    ∃ n e, call.entry? = some n ∧ σ.bookings.lookup n = some e ∧ e.liveUntil < env.sequence

theorem requireAuth_archived (env : Env) (a : Address) :
    requireAuth env a ≠ .error (.trap .archivedEntry) := by
  unfold requireAuth
  split <;> simp

theorem transfer_archived (env : Env) (σ : Escrow) (sender receiver : Address) (amount : Int) :
    transfer env σ sender receiver amount ≠ .error (.trap .archivedEntry) := by
  unfold transfer
  split
  · simp
  · simp [tokenTransfer, guard_eq_error]

theorem asset_archived (σ : Escrow) : asset σ ≠ .error (.trap .archivedEntry) := by
  unfold asset
  split <;> simp

theorem readBooking_archived {env : Env} {σ : Escrow} {n : UInt64} :
    readBooking env σ n = .error (.trap .archivedEntry) ↔
      ∃ e, σ.bookings.lookup n = some e ∧ e.liveUntil < env.sequence := by
  unfold readBooking
  split
  · rename_i h
    simp [h]
  · rename_i e h
    simp [h]

theorem hasBooking_archived {env : Env} {σ : Escrow} {n : UInt64} :
    hasBooking env σ n = .error (.trap .archivedEntry) ↔
      ∃ e, σ.bookings.lookup n = some e ∧ e.liveUntil < env.sequence := by
  unfold hasBooking
  split
  · rename_i h
    simp [h]
  · rename_i e h
    simp [h]

/-- An entry point that reads a booking fails for an expired entry only in that read. -/
theorem archived_of_call {env : Env} {σ : Escrow} {call : Call}
    (hlive : ¬ σ.instanceLiveUntil < env.sequence)
    (h : invoke env σ call = .error (.trap .archivedEntry)) :
    ∃ n, call.entry? = some n ∧
      ∃ e, σ.bookings.lookup n = some e ∧ e.liveUntil < env.sequence := by
  unfold invoke at h
  rw [if_neg hlive] at h
  cases call with
  | initializeEscrow admin a =>
    simp only [initializeEscrow, guard_eq_error, bind_eq_error] at h
    rcases h with ⟨-, h⟩ | ⟨-, h | ⟨_, -, h⟩⟩
    · cases h
    · exact absurd h (requireAuth_archived env admin)
    · cases h
  | createBooking n renter host amount visitTime =>
    refine ⟨n, rfl, hasBooking_archived.mp ?_⟩
    simp only [createBooking, bind_eq_error, guard_eq_error] at h
    rcases h with h | ⟨_, -, h | ⟨_, -, ⟨-, h⟩ | ⟨-, ⟨-, h⟩ | ⟨-, h | ⟨_, -, h⟩⟩⟩⟩⟩
    · exact absurd h (asset_archived σ)
    · exact h
    · cases h
    · cases h
    · exact absurd h (requireAuth_archived env renter)
    · cases h
  | booking n => exact ⟨n, rfl, readBooking_archived.mp (map_eq_error.mp h)⟩
  | fundBooking renter n =>
    refine ⟨n, rfl, readBooking_archived.mp ?_⟩
    simp only [fundBooking, bind_eq_error, guard_eq_error] at h
    rcases h with h | ⟨⟨b, σ₁⟩, -, ⟨-, h⟩ | ⟨-, ⟨-, h⟩ | ⟨-, h | ⟨_, -, h | ⟨_, -, h⟩⟩⟩⟩⟩
    · exact h
    · cases h
    · cases h
    · exact absurd h (requireAuth_archived env renter)
    · exact absurd h (transfer_archived env σ₁ _ _ _)
    · cases h
  | cancelBooking renter n =>
    refine ⟨n, rfl, readBooking_archived.mp ?_⟩
    simp only [cancelBooking, bind_eq_error, guard_eq_error] at h
    rcases h with h | ⟨⟨b, σ₁⟩, -, ⟨-, h⟩ | ⟨-, ⟨-, h⟩ | ⟨-, ⟨-, h⟩ | ⟨-, h | ⟨_, -, h⟩⟩⟩⟩⟩
    · exact h
    · cases h
    · cases h
    · cases h
    · exact absurd h (requireAuth_archived env renter)
    · split at h
      · rcases bind_eq_error.mp h with h | ⟨_, -, h⟩
        · exact absurd h (transfer_archived env σ₁ _ _ _)
        · cases h
      · rcases bind_eq_error.mp h with h | ⟨_, -, h⟩ <;> cases h
  | confirmVisit host n =>
    refine ⟨n, rfl, readBooking_archived.mp ?_⟩
    simp only [confirmVisit, bind_eq_error, guard_eq_error] at h
    rcases h with h | ⟨⟨b, σ₁⟩, -, ⟨-, h⟩ | ⟨-, ⟨-, h⟩ | ⟨-, h | ⟨_, -, h | ⟨_, -, h⟩⟩⟩⟩⟩
    · exact h
    · cases h
    · cases h
    · exact absurd h (requireAuth_archived env host)
    · exact absurd h (transfer_archived env σ₁ _ _ _)
    · cases h

/-- In an initialised escrow a call fails for an expired entry exactly if it needs one. -/
theorem archived_iff {env : Env} {σ : Escrow} {a : Address} (ha : σ.asset = some a) {call : Call} :
    invoke env σ call = .error (.trap .archivedEntry) ↔ NeedsExpired env σ call := by
  unfold NeedsExpired
  by_cases hinst : σ.instanceLiveUntil < env.sequence
  · simp [invoke, hinst]
  constructor
  · intro h
    obtain ⟨n, hn, e, he, hexpired⟩ := archived_of_call hinst h
    exact .inr ⟨n, e, hn, he, hexpired⟩
  · rintro (h | ⟨n, e, hn, he, hexpired⟩)
    · exact absurd h hinst
    · have hread := readBooking_archived.mpr ⟨e, he, hexpired⟩
      have hhas := hasBooking_archived.mpr ⟨e, he, hexpired⟩
      unfold invoke
      rw [if_neg hinst]
      cases call with
      | initializeEscrow admin asset => cases hn
      | createBooking m renter host amount visitTime =>
        cases hn
        exact bind_eq_error.mpr (.inr ⟨a, asset_eq_ok.mpr ha, bind_eq_error.mpr (.inl hhas)⟩)
      | booking m => cases hn; exact map_eq_error.mpr hread
      | fundBooking renter m => cases hn; exact bind_eq_error.mpr (.inl hread)
      | cancelBooking renter m => cases hn; exact bind_eq_error.mpr (.inl hread)
      | confirmVisit host m => cases hn; exact bind_eq_error.mpr (.inl hread)

/-! ## Runs -/

section Runs

variable (d : Deployment) (n : UInt64)

/-- The action is a successful call on booking `n`. -/
def CallsBooking (s : Ledger) : Action → Prop
  | .close _ _ => False
  | .tokens _ => False
  | .invoke hash auths acc call => call.entry? = some n ∧ d.contract ∉ auths ∧
      (invoke (s.env d hash auths acc) s.escrow call).isOk = true

instance (s : Ledger) : (a : Action) → Decidable (CallsBooking d n s a)
  | .close _ _ => inferInstanceAs (Decidable False)
  | .tokens _ => inferInstanceAs (Decidable False)
  | .invoke _ _ _ _ => inferInstanceAs (Decidable (_ ∧ _ ∧ _))

/-- The action is a call that fails because an entry it needs has expired. -/
def FailsExpired (s : Ledger) : Action → Prop
  | .close _ _ => False
  | .tokens _ => False
  | .invoke hash auths acc call =>
      invoke (s.env d hash auths acc) s.escrow call = .error (.trap .archivedEntry)

instance (x : Except Failure Escrow) (f : Failure) : Decidable (x = .error f) :=
  match x with
  | .ok _ => isFalse nofun
  | .error g => decidable_of_iff (g = f) ⟨congrArg _, Except.error.inj⟩

instance (s : Ledger) : (a : Action) → Decidable (FailsExpired d s a)
  | .close _ _ => inferInstanceAs (Decidable False)
  | .tokens _ => inferInstanceAs (Decidable False)
  | .invoke _ _ _ _ => inferInstanceAs (Decidable (_ = _))

/-- A call on a booking other than `n` finds its entry alive. -/
def OthersAlive (s : Ledger) : Action → Prop
  | .close _ _ => True
  | .tokens _ => True
  | .invoke _ _ _ call => ∀ m ∈ call.entry?, m ≠ n →
      ∀ e ∈ s.escrow.bookings.lookup m, s.sequence ≤ e.liveUntil

instance (s : Ledger) : (a : Action) → Decidable (OthersAlive n s a)
  | .close _ _ => inferInstanceAs (Decidable True)
  | .tokens _ => inferInstanceAs (Decidable True)
  | .invoke _ _ _ call => Option.decidableForallMem call.entry?

/-- Initialised, with the instance entry alive until `L`. -/
structure Leased (L : Nat) (s : Ledger) : Prop where
  keyed : s.escrow.Keyed
  asset : ∃ a, s.escrow.asset = some a
  inst : s.escrow.instanceLiveUntil = L

variable {d n}

/-- No call extends the instance entry once the escrow is initialised. -/
theorem leased_step {L : Nat} (s : Ledger) (a : Action) (s' : Ledger) (h : Leased L s)
    (hstep : ledgerStep d s a = some s') : Leased L s' := by
  rcases ledgerStep_cases h.keyed hstep with ⟨t, q, -, -, -, rfl⟩ | ⟨m, -, rfl⟩ |
    ⟨hash, auths, acc, call, σ, rfl, -, hinv, heff, rfl⟩ | ⟨-, -, -, -, -, -, -, rfl⟩
  · exact ⟨h.keyed, h.asset, h.inst⟩
  · exact ⟨h.keyed, h.asset, h.inst⟩
  · obtain ⟨a, ha⟩ := h.asset
    refine ⟨heff.keyed h.keyed, ⟨a, heff.asset_eq ha⟩, ?_⟩
    cases hn : call.entry? with
    | none =>
      -- a second `initializeEscrow` does not commit
      cases heff with
      | initializeEscrow _ _ _ hnone =>
        rw [hnone] at ha
        cases ha
      | _ => cases hn
    | some m => exact (renewed_of_invoke h.keyed hinv hn).inst.trans h.inst
  · exact h

theorem sequence_step {L : Nat} (s : Ledger) (a : Action) (s' : Ledger) (h : Leased L s)
    (hstep : ledgerStep d s a = some s') : s.sequence ≤ s'.sequence := by
  rcases ledgerStep_cases h.keyed hstep with ⟨t, q, -, -, hq, rfl⟩ | ⟨m, -, rfl⟩ |
    ⟨hash, auths, acc, call, σ, rfl, -, hinv, heff, rfl⟩ | ⟨-, -, -, -, -, -, -, rfl⟩
  · exact hq
  · exact Nat.le_refl _
  · exact Nat.le_refl _
  · exact Nat.le_refl _

/-- The live-until ledger of the entry of booking `n`. -/
def entryLiveUntil (n : UInt64) (s : Ledger) : Option Nat :=
  (s.escrow.bookings.lookup n).map Entry.liveUntil

theorem entry_renewed {L : Nat} (s : Ledger) (a : Action) (s' : Ledger) (h : Leased L s)
    (hstep : ledgerStep d s a = some s') (hcall : CallsBooking d n s a) :
    ∃ e, entryLiveUntil n s' = some e ∧ s.sequence + ttlThreshold ≤ e := by
  cases a with
  | close t q => exact hcall.elim
  | tokens m => exact hcall.elim
  | invoke hash auths acc call =>
    obtain ⟨hn, hself, hok⟩ := hcall
    cases hinv : invoke (s.env d hash auths acc) s.escrow call with
    | error f =>
      rw [hinv] at hok
      cases hok
    | ok σ =>
      simp only [ledgerStep, if_neg hself, hinv, Option.some.injEq] at hstep
      obtain ⟨e, he, hle⟩ := (renewed_of_invoke h.keyed hinv hn).entry
      refine ⟨e.liveUntil, ?_, hle⟩
      subst hstep
      exact congrArg (Option.map Entry.liveUntil) he

theorem entry_kept {L : Nat} (s : Ledger) (a : Action) (s' : Ledger) (h : Leased L s)
    (hstep : ledgerStep d s a = some s') (hcall : ¬ CallsBooking d n s a) :
    entryLiveUntil n s' = entryLiveUntil n s := by
  rcases ledgerStep_cases h.keyed hstep with ⟨t, q, -, -, -, rfl⟩ | ⟨m, -, rfl⟩ |
    ⟨hash, auths, acc, call, σ, rfl, hself, hinv, heff, rfl⟩ | ⟨-, -, -, -, -, -, -, rfl⟩
  · rfl
  · rfl
  · refine congrArg (Option.map Entry.liveUntil) ?_
    cases hm : call.entry? with
    | none =>
      cases heff with
      | initializeEscrow => rfl
      | _ => cases hm
    | some m =>
      have hne : n ≠ m := by
        rintro rfl
        exact hcall ⟨hm, hself, by rw [hinv]; rfl⟩
      exact (renewed_of_invoke h.keyed hinv hm).others n hne
  · rfl

/-- Under a lease until `L`, all closes of a run are at most at `L` exactly if all its states
    are. -/
theorem sequences_le_iff {L : Nat} {s s' : Ledger} {as : List Action} (h : Leased L s)
    (hs : s.sequence ≤ L) (hrun : (ledgerMachine d).exec s as = some s') :
    (∀ t ∈ (ledgerMachine d).visited s as, t.sequence ≤ L) ↔
      ∀ t q, Action.close t q ∈ as → q ≤ L := by
  have hstep : ∀ (s : Ledger) (a : Action) (s' : Ledger), Leased L s → s.sequence ≤ L →
      ledgerStep d s a = some s' → (s'.sequence ≤ L ↔ ∀ t q, a = .close t q → q ≤ L) := by
    intro s a s' h hs hstep
    rcases ledgerStep_cases h.keyed hstep with ⟨t, q, rfl, -, -, rfl⟩ | ⟨m, rfl, rfl⟩ |
      ⟨hash, auths, acc, call, σ, rfl, -, -, -, rfl⟩ | ⟨hash, auths, acc, call, f, rfl, -, rfl⟩
    · simp
    · simpa using hs
    · have hseq : (s.commit auths call σ).sequence = s.sequence := rfl
      simpa [hseq] using hs
    · simpa using hs
  rw [(ledgerMachine d).visited_iff_along (G := fun t => t.sequence ≤ L)
    (P := fun _ a => ∀ t q, a = .close t q → q ≤ L) leased_step hstep hrun h hs]
  constructor
  · intro halong t q hmem
    exact (ledgerMachine d).forall_of_along hrun halong _ hmem t q rfl
  · intro hall
    refine (ledgerMachine d).along_of_forall s fun a ha t q hclose => hall t q ?_
    exact hclose ▸ ha

/-- With the instance and booking `n` alive, a call fails for an expired entry exactly if it
    is about another booking whose entry has expired. -/
theorem failsExpired_iff {L : Nat} {s : Ledger} (h : Leased L s) (hs : s.sequence ≤ L)
    (hentry : ∀ e, entryLiveUntil n s = some e → s.sequence ≤ e) (a : Action) :
    ¬ FailsExpired d s a ↔ OthersAlive n s a := by
  obtain ⟨asset, hasset⟩ := h.asset
  have hinst : ¬ s.escrow.instanceLiveUntil < s.sequence := by
    rw [h.inst]
    omega
  cases a with
  | close t q => simp [FailsExpired, OthersAlive]
  | tokens m => simp [FailsExpired, OthersAlive]
  | invoke hash auths acc call =>
    unfold FailsExpired OthersAlive
    dsimp only
    rw [archived_iff hasset]
    constructor
    · intro hnot m hm _ e he
      by_contra hlate
      exact hnot (.inr ⟨m, e, hm, he, Nat.lt_of_not_le hlate⟩)
    · rintro hothers (hexpired | ⟨m, e, hm, he, hexpired⟩)
      · exact hinst hexpired
      · have hlive : s.sequence ≤ e.liveUntil := by
          by_cases hmn : m = n
          · subst hmn
            exact hentry _ (congrArg (Option.map Entry.liveUntil) he)
          · exact hothers m hm hmn e he
        exact absurd hexpired (Nat.not_lt.mpr hlive)

/-- The part of a run after `initializeEscrow`: booking `n` is kept alive by its calls, so
    only the clock and the calls on other bookings matter. -/
theorem leased_stays_alive_iff {L : Nat} {s s' : Ledger} {as : List Action} (h : Leased L s)
    (hs : s.sequence ≤ L) (habsent : entryLiveUntil n s = none)
    (hrun : (ledgerMachine d).exec s as = some s')
    (hwindow : Machine.EveryWindow ttlThreshold s.sequence s'.sequence
      ((ledgerMachine d).renewals Ledger.sequence (CallsBooking d n) s as)) :
    ((∀ t ∈ (ledgerMachine d).visited s as, Live t.sequence t.escrow n) ∧
      (ledgerMachine d).Along (fun t a => ¬ FailsExpired d t a) s as) ↔
    ((∀ t q, Action.close t q ∈ as → q ≤ L) ∧ (ledgerMachine d).Along (OthersAlive n) s as) := by
  have hentry := Machine.lease_never_expires leased_step sequence_step (entryLiveUntil n)
    entry_renewed entry_kept hrun h habsent hwindow
  have hinv : ∀ t ∈ (ledgerMachine d).visited s as, Leased L t :=
    (ledgerMachine d).visited_invariant leased_step h
  have hlive : ∀ t ∈ (ledgerMachine d).visited s as,
      (Live t.sequence t.escrow n ↔ t.sequence ≤ L) := by
    intro t ht
    constructor
    · intro hl
      exact hl.inst.trans_eq (hinv t ht).inst
    · intro hle
      refine ⟨hle.trans_eq (hinv t ht).inst.symm, fun e he => hentry t ht _ ?_⟩
      exact congrArg (Option.map Entry.liveUntil) he
  have hcalls : (∀ t ∈ (ledgerMachine d).visited s as, t.sequence ≤ L) →
      ((ledgerMachine d).Along (fun t a => ¬ FailsExpired d t a) s as ↔
        (ledgerMachine d).Along (OthersAlive n) s as) := by
    intro hle
    have hiff : (ledgerMachine d).Along
        (fun t _ => ∀ a, ¬ FailsExpired d t a ↔ OthersAlive n t a) s as := by
      refine (ledgerMachine d).along_of_visited fun t ht a => ?_
      exact failsExpired_iff (hinv t ht) (hle t ht) (hentry t ht) a
    constructor
    · intro hfails
      exact (ledgerMachine d).along_mono (fun t a hta => (hta.1 a).mp hta.2)
        ((ledgerMachine d).along_and hiff hfails)
    · intro hothers
      exact (ledgerMachine d).along_mono (fun t a hta => (hta.1 a).mpr hta.2)
        ((ledgerMachine d).along_and hiff hothers)
  rw [← sequences_le_iff h hs hrun, forall₂_congr hlive]
  exact and_congr_right hcalls

end Runs

/-- `initializeEscrow` sets the asset and leases the instance entry. -/
theorem leased_of_init {d : Deployment} {s : Ledger} (h₀ : Fresh d s) {hash : String}
    {auths : List Address} {acc : Address → Address → Address → Int → Bool}
    {admin accepted : Address} {σ : Escrow}
    (hinit : invoke (s.env d hash auths acc) s.escrow (.initializeEscrow admin accepted) = .ok σ) :
    σ.bookings = ∅ ∧ Leased (extendTtl (s.env d hash auths acc) s.escrow.instanceLiveUntil
      ttlThreshold ttlExtendTo) (s.commit auths (.initializeEscrow admin accepted) σ) := by
  obtain ⟨-, h⟩ := guard_eq_ok.mp hinit
  simp only [initializeEscrow, guard_eq_ok, bind_eq_ok, pure_eq_ok] at h
  obtain ⟨-, -, -, rfl⟩ := h
  refine ⟨h₀.bookings, fun n e he => ?_, ⟨accepted, rfl⟩, rfl⟩
  rw [commit_escrow, h₀.bookings] at he
  cases he

/-- A run that starts with `initializeEscrow`. -/
def initRun (hash : String) (auths : List Address)
    (acc : Address → Address → Address → Int → Bool) (admin accepted : Address)
    (as : List Action) : List Action :=
  .invoke hash auths acc (.initializeEscrow admin accepted) :: as

/-- **What keeps an escrow alive.** Let a run start with a successful `initializeEscrow`, and
    let every `ttlThreshold` consecutive ledgers of it contain a successful call on booking
    `n`. Neither the instance entry nor the entry of `n` ever expires, and no call fails for
    an expired entry, exactly if no ledger of the run is numbered past the ledger the
    instance entry lives until after `initializeEscrow`, and calls on other bookings find
    their entries alive. -/
theorem escrow_stays_alive_iff {d : Deployment} (s₀ s' : Ledger) (h₀ : Fresh d s₀) (hash : String)
    (auths : List Address) (acc : Address → Address → Address → Int → Bool)
    (admin accepted : Address) (σ : Escrow)
    (hinit : invoke (s₀.env d hash auths acc) s₀.escrow (.initializeEscrow admin accepted) = .ok σ)
    (as : List Action)
    (hrun : (ledgerMachine d).exec s₀ (initRun hash auths acc admin accepted as) = some s')
    (n : UInt64)
    (hwindow : Machine.EveryWindow ttlThreshold s₀.sequence s'.sequence
      ((ledgerMachine d).renewals Ledger.sequence (CallsBooking d n) s₀
        (initRun hash auths acc admin accepted as))) :
    ((∀ t ∈ (ledgerMachine d).visited s₀ (initRun hash auths acc admin accepted as),
        Live t.sequence t.escrow n) ∧
      (ledgerMachine d).Along (fun s a => ¬ FailsExpired d s a) s₀
        (initRun hash auths acc admin accepted as)) ↔
    ((∀ t q, Action.close t q ∈ as → q ≤ extendTtl (s₀.env d hash auths acc)
        s₀.escrow.instanceLiveUntil ttlThreshold ttlExtendTo) ∧
      (ledgerMachine d).Along (OthersAlive n) s₀ (initRun hash auths acc admin accepted as)) := by
  unfold initRun at *
  obtain ⟨s₁, hstep, hrest⟩ := (ledgerMachine d).exec_cons_eq_some.mp hrun
  obtain rfl : s₁ = s₀.commit auths (.initializeEscrow admin accepted) σ := by
    simp only [ledgerMachine, ledgerStep, Option.ite_none_left_eq_some, hinit,
      Option.some.injEq] at hstep
    exact hstep.2.symm
  obtain ⟨hempty, hleased⟩ := leased_of_init h₀ hinit
  set s₁ := s₀.commit auths (.initializeEscrow admin accepted) σ
  set L := extendTtl (s₀.env d hash auths acc) s₀.escrow.instanceLiveUntil ttlThreshold ttlExtendTo
  -- the call of `initializeEscrow` renews no booking and finds the instance alive
  have hnocall : ¬ CallsBooking d n s₀
      (.invoke hash auths acc (.initializeEscrow admin accepted)) := by
    rintro ⟨hn, -⟩
    cases hn
  have hfirst : Live s₀.sequence s₀.escrow n := by
    refine ⟨Nat.le_of_not_lt (guard_eq_ok.mp hinit).1, fun e he => ?_⟩
    rw [h₀.bookings] at he
    cases he
  have hfirstOk : ¬ FailsExpired d s₀
      (.invoke hash auths acc (.initializeEscrow admin accepted)) := by
    intro hfail
    rw [FailsExpired, hinit] at hfail
    cases hfail
  have hfirstOthers : OthersAlive n s₀
      (.invoke hash auths acc (.initializeEscrow admin accepted)) := by
    intro m hm
    cases hm
  have hle : s₁.sequence ≤ L :=
    (Nat.le_add_right _ _).trans (le_extendTtl (s₀.env d hash auths acc) _)
  have habsent : entryLiveUntil n s₁ = none := by
    unfold entryLiveUntil
    rw [commit_escrow, hempty]
    rfl
  rw [Machine.renewals_cons hstep, if_neg hnocall, List.nil_append] at hwindow
  have hrest' := leased_stays_alive_iff hleased hle habsent hrest hwindow
  have hnext : ∀ P : Ledger → Action → Prop,
      (∀ t, (ledgerMachine d).step s₀ (.invoke hash auths acc (.initializeEscrow admin accepted)) =
        some t → (ledgerMachine d).Along P t as) ↔ (ledgerMachine d).Along P s₁ as := by
    intro P
    simp [hstep]
  rw [(ledgerMachine d).visited_cons hstep, List.forall_mem_cons]
  simp only [Machine.Along, hnext, hfirst, hfirstOk, hfirstOthers, true_and, not_false_eq_true]
  exact hrest'

/-- Booking 1 created, and read again 200000 ledgers later. -/
def tendedRun : List Action :=
  [.invoke "t1" ["renter"] (fun _ _ _ _ => true) (.createBooking 1 "renter" "host" 1000000 9000),
   .close 2000 200007,
   .invoke "t2" [] (fun _ _ _ _ => true) (.booking 1)]

/-- The fresh deployment of these runs, in ledger 7. -/
def freshEscrow : Ledger := freshLedger ⟨"escrow", 300000⟩ 1000 7 300007 fun _ _ => 10000000

theorem escrow_stays_alive_iff_tended :
    (∀ t ∈ (ledgerMachine ⟨"escrow", 300000⟩).visited freshEscrow
        (initRun "t0" ["admin"] (fun _ _ _ _ => true) "admin" "XLM" tendedRun),
        Live t.sequence t.escrow 1) ∧
      (ledgerMachine ⟨"escrow", 300000⟩).Along
        (fun s a => ¬ FailsExpired ⟨"escrow", 300000⟩ s a) freshEscrow
        (initRun "t0" ["admin"] (fun _ _ _ _ => true) "admin" "XLM" tendedRun) := by
  have hwindow : Machine.EveryWindow ttlThreshold 7 200007 [7, 200007] := by
    intro m hm hlast
    exact ⟨7, by simp, by simp only [ttlThreshold] at *; omega⟩
  refine (escrow_stays_alive_iff freshEscrow _ (fresh_freshLedger _ _ _ _ _) "t0" ["admin"]
    (fun _ _ _ _ => true) "admin" "XLM" _ rfl tendedRun rfl 1 hwindow).mpr ⟨?_, by decide +kernel⟩
  intro t q hmem
  simp only [tendedRun, List.mem_cons, Action.close.injEq, reduceCtorEq, List.not_mem_nil,
    or_false, false_or] at hmem
  obtain ⟨-, rfl⟩ := hmem
  decide

/-- `tendedRun`, and another read 100001 ledgers later. -/
def outlivedRun : List Action :=
  tendedRun ++ [.close 3000 300008, .invoke "t3" [] (fun _ _ _ _ => true) (.booking 1)]

/-- The instance entry expires under a booking that is called often enough. -/
theorem instance_expires :
    ∃ s', (ledgerMachine ⟨"escrow", 300000⟩).exec freshEscrow
        (initRun "t0" ["admin"] (fun _ _ _ _ => true) "admin" "XLM" outlivedRun) = some s' ∧
      freshEscrow.sequence + ttlThreshold ≤ freshEscrow.escrow.instanceLiveUntil ∧
      Machine.EveryWindow ttlThreshold freshEscrow.sequence s'.sequence
        ((ledgerMachine ⟨"escrow", 300000⟩).renewals Ledger.sequence
          (CallsBooking ⟨"escrow", 300000⟩ 1) freshEscrow
          (initRun "t0" ["admin"] (fun _ _ _ _ => true) "admin" "XLM" outlivedRun)) ∧
      s'.escrow.instanceLiveUntil < s'.sequence ∧
      ¬ (ledgerMachine ⟨"escrow", 300000⟩).Along
        (fun s a => ¬ FailsExpired ⟨"escrow", 300000⟩ s a) freshEscrow
        (initRun "t0" ["admin"] (fun _ _ _ _ => true) "admin" "XLM" outlivedRun) := by
  have hwindow : Machine.EveryWindow ttlThreshold 7 300008 [7, 200007] := by
    intro m hm hlast
    exact ⟨200007, by simp, by simp only [ttlThreshold] at *; omega⟩
  exact ⟨_, rfl, by decide, hwindow, by decide, by decide +kernel⟩

end PovDeposit.Contract
