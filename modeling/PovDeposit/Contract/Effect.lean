/-
  What a committed call does.

  `Effect env σ call σ'` lists the outcomes of a call that returned `Ok`: its guards, the
  token movement it made, and the state it left. Cancelling has two: a funded booking is
  paid back, a booking that was never funded only changes state.
  `effect_of_invoke` is the one place where the entry points are unfolded; every invariant
  is proved from `Effect`.

  `Keyed` is the storage invariant that makes the two writes of an entry point (the renewal
  by `readBooking` and the `set` by `writeBooking`) go to the same entry.
-/
import PovDeposit.Contract.Ledger
import PovDeposit.Lib.KeyedSum
import PovDeposit.Lib.Outcome

namespace PovDeposit.Contract

open PovDeposit.Lib PovDeposit.Lib.Outcome

/-- Every booking is stored under its own id. -/
def Escrow.Keyed (σ : Escrow) : Prop :=
  ∀ n e, σ.bookings.lookup n = some e → e.value.bookingId = n

/-- `σ` with `b` stored under its id. -/
def Escrow.store (σ : Escrow) (b : Booking) (liveUntil : Nat) : Escrow :=
  { σ with bookings := σ.bookings.insert b.bookingId ⟨b, liveUntil⟩ }

/-- `σ` after the token movement `t`. -/
def Escrow.pay (σ : Escrow) (t : Transfer) : Escrow :=
  { σ with
    balances := moveBalance σ.balances t.asset t.sender t.receiver t.amount
    transfers := σ.transfers ++ [t] }

/-- The transfer that funds a booking. -/
def Booking.deposit (b : Booking) (asset contract : Address) : Transfer :=
  ⟨asset, b.renter, contract, b.depositAmount⟩

/-- The transfer that returns a booking's deposit. -/
def Booking.payout (b : Booking) (asset contract : Address) : Transfer :=
  ⟨asset, contract, b.renter, b.depositAmount⟩

def Booking.withState (b : Booking) (state : BookingState) : Booking := { b with state := state }

section Simp

variable (σ : Escrow) (b : Booking) (l : Nat) (t : Transfer) (env : Env) (ev : ContractEvent)

@[simp] theorem store_asset : (σ.store b l).asset = σ.asset := rfl
@[simp] theorem store_balances : (σ.store b l).balances = σ.balances := rfl
@[simp] theorem store_transfers : (σ.store b l).transfers = σ.transfers := rfl
@[simp] theorem store_events : (σ.store b l).events = σ.events := rfl
@[simp] theorem pay_asset : (σ.pay t).asset = σ.asset := rfl
@[simp] theorem pay_bookings : (σ.pay t).bookings = σ.bookings := rfl
@[simp] theorem pay_transfers : (σ.pay t).transfers = σ.transfers ++ [t] := rfl
@[simp] theorem pay_events : (σ.pay t).events = σ.events := rfl
@[simp] theorem publish_asset : (publish env σ ev).asset = σ.asset := rfl
@[simp] theorem publish_bookings : (publish env σ ev).bookings = σ.bookings := rfl
@[simp] theorem publish_balances : (publish env σ ev).balances = σ.balances := rfl
@[simp] theorem publish_transfers : (publish env σ ev).transfers = σ.transfers := rfl
@[simp] theorem publish_events : (publish env σ ev).events =
    σ.events ++ [⟨env.txHash, env.sequence, ev⟩] := rfl
@[simp] theorem withState_bookingId (s : BookingState) :
    (b.withState s).bookingId = b.bookingId := rfl
@[simp] theorem withState_state (s : BookingState) : (b.withState s).state = s := rfl
@[simp] theorem withState_depositAmount (s : BookingState) :
    (b.withState s).depositAmount = b.depositAmount := rfl

end Simp

theorem booking?_eq_some {σ : Escrow} {n : UInt64} {b : Booking} :
    σ.booking? n = some b ↔ ∃ l, σ.bookings.lookup n = some ⟨b, l⟩ := by
  unfold Escrow.booking?
  constructor
  · intro h
    obtain ⟨e, he, rfl⟩ := Option.map_eq_some_iff.mp h
    exact ⟨e.liveUntil, he⟩
  · rintro ⟨l, h⟩
    rw [h]
    rfl

theorem booking?_eq_none {σ : Escrow} {n : UInt64} :
    σ.booking? n = none ↔ σ.bookings.lookup n = none := by
  simp [Escrow.booking?]

@[simp] theorem booking?_publish (env : Env) (σ : Escrow) (ev : ContractEvent) (n : UInt64) :
    (publish env σ ev).booking? n = σ.booking? n := rfl

theorem booking?_store (σ : Escrow) (b : Booking) (l : Nat) (n : UInt64) :
    (σ.store b l).booking? n = if n = b.bookingId then some b else σ.booking? n := by
  unfold Escrow.booking? Escrow.store
  rw [lookup_insert]
  split <;> rfl

theorem Escrow.Keyed.bookingId {σ : Escrow} (h : σ.Keyed) {n : UInt64} {b : Booking}
    (hb : σ.booking? n = some b) : b.bookingId = n := by
  obtain ⟨l, hl⟩ := booking?_eq_some.mp hb
  exact h n _ hl

theorem keyed_store {σ : Escrow} (h : σ.Keyed) (b : Booking) (l : Nat) : (σ.store b l).Keyed := by
  intro n e he
  rw [Escrow.store, lookup_insert] at he
  split at he
  · rename_i hn
    cases he
    exact hn.symm
  · exact h n e he

/-! ## The outcomes of a committed call -/

inductive Effect (env : Env) (σ : Escrow) : Call → Escrow → Prop where
  | initializeEscrow (admin acceptedAsset : Address) (live : Nat) (hnone : σ.asset = none)
      (hauth : admin ∈ env.auths) :
      Effect env σ (.initializeEscrow admin acceptedAsset)
        { σ with asset := some acceptedAsset, instanceLiveUntil := live }
  | createBooking (n : UInt64) (renter host : Address) (amount : Int) (visitTime : UInt64)
      (a : Address) (live : Nat) (hasset : σ.asset = some a) (hnew : σ.booking? n = none)
      (hparties : renter ≠ host) (hmin : minDeposit ≤ amount) (hmax : amount ≤ maxDeposit)
      (htime : env.timestamp < visitTime) (hauth : renter ∈ env.auths) :
      Effect env σ (.createBooking n renter host amount visitTime)
        (publish env (σ.store ⟨n, renter, host, amount, visitTime, .created⟩ live)
          (.bookingCreated n renter host amount))
  | booking (n : UInt64) (b : Booking) (live : Nat) (hb : σ.booking? n = some b) :
      Effect env σ (.booking n) (σ.store b live)
  | fundBooking (n : UInt64) (b : Booking) (a : Address) (live : Nat)
      (hb : σ.booking? n = some b) (hstate : b.state = .created) (hauth : b.renter ∈ env.auths)
      (hasset : σ.asset = some a) (hfunds : b.depositAmount ≤ σ.balances a b.renter) :
      Effect env σ (.fundBooking b.renter n)
        (publish env ((σ.pay (b.deposit a env.contract)).store (b.withState .funded) live)
          (.bookingFunded n b.depositAmount))
  | cancelUnfunded (n : UInt64) (b : Booking) (live : Nat)
      (hb : σ.booking? n = some b) (hstate : b.state = .created) (hauth : b.renter ∈ env.auths)
      (htime : env.timestamp < b.visitTime) :
      Effect env σ (.cancelBooking b.renter n)
        (publish env (σ.store (b.withState .refunded) live)
          (.depositRefunded n b.depositAmount))
  | cancelFunded (n : UInt64) (b : Booking) (a : Address) (live : Nat)
      (hb : σ.booking? n = some b) (hstate : b.state = .funded) (hauth : b.renter ∈ env.auths)
      (htime : env.timestamp < b.visitTime) (hasset : σ.asset = some a)
      (hfunds : b.depositAmount ≤ σ.balances a env.contract) :
      Effect env σ (.cancelBooking b.renter n)
        (publish env ((σ.pay (b.payout a env.contract)).store (b.withState .refunded) live)
          (.depositRefunded n b.depositAmount))
  | confirmVisit (n : UInt64) (b : Booking) (a : Address) (live : Nat)
      (hb : σ.booking? n = some b) (hstate : b.state = .funded) (hauth : b.host ∈ env.auths)
      (htime : b.visitTime ≤ env.timestamp) (hasset : σ.asset = some a)
      (hfunds : b.depositAmount ≤ σ.balances a env.contract) :
      Effect env σ (.confirmVisit b.host n)
        (publish env ((σ.pay (b.payout a env.contract)).store (b.withState .released) live)
          (.visitConfirmed n b.depositAmount))

/-! ## Inversion of the helpers -/

theorem requireAuth_eq_ok {env : Env} {a : Address} {u : Unit} :
    requireAuth env a = .ok u ↔ a ∈ env.auths := by
  simp [requireAuth]

theorem asset_eq_ok {σ : Escrow} {a : Address} : asset σ = .ok a ↔ σ.asset = some a := by
  unfold asset
  split <;> simp_all

theorem hasBooking_eq_ok_false {env : Env} {σ : Escrow} {n : UInt64} :
    hasBooking env σ n = .ok false ↔ σ.booking? n = none := by
  unfold hasBooking
  split
  · rename_i h
    simp [booking?_eq_none, h]
  · rename_i e h
    simp [booking?_eq_none, h, guard_eq_ok]

/-- A successful read: the stored booking, and `σ` with its entry renewed. -/
theorem readBooking_eq_ok {env : Env} {σ σ' : Escrow} (hk : σ.Keyed) {n : UInt64} {b : Booking}
    (h : readBooking env σ n = .ok (b, σ')) :
    σ.booking? n = some b ∧ b.bookingId = n ∧ ∃ l, σ' = σ.store b l := by
  unfold readBooking at h
  split at h
  · cases h
  · rename_i e he
    obtain ⟨-, h⟩ := guard_eq_ok.mp h
    simp only [Except.ok.injEq, Prod.mk.injEq] at h
    obtain ⟨rfl, rfl⟩ := h
    have hid : e.value.bookingId = n := hk n e he
    refine ⟨booking?_eq_some.mpr ⟨e.liveUntil, he⟩, hid, ?_⟩
    exact ⟨extendTtl env e.liveUntil ttlThreshold ttlExtendTo, by rw [Escrow.store, hid]⟩

theorem readBooking_live {env : Env} {σ : Escrow} {n : UInt64} {x : Booking × Escrow}
    (h : readBooking env σ n = .ok x) :
    ∃ e, σ.bookings.lookup n = some e ∧ env.sequence ≤ e.liveUntil := by
  unfold readBooking at h
  split at h
  · cases h
  · rename_i e he
    obtain ⟨hlive, -⟩ := guard_eq_ok.mp h
    exact ⟨e, he, Nat.le_of_not_lt hlive⟩

theorem readBooking_of_live (env : Env) {σ : Escrow} {n : UInt64} {e : Entry}
    (he : σ.bookings.lookup n = some e) (hlive : env.sequence ≤ e.liveUntil) :
    readBooking env σ n = .ok (e.value, { σ with
      bookings := σ.bookings.insert n
        ⟨e.value, extendTtl env e.liveUntil ttlThreshold ttlExtendTo⟩ }) := by
  unfold readBooking
  rw [he]
  exact if_neg (Nat.not_lt.mpr hlive)

/-- Writing a booking again after its entry was renewed overwrites that entry. -/
theorem writeBooking_store (env : Env) (σ : Escrow) (b b' : Booking) (l : Nat)
    (h : b'.bookingId = b.bookingId) :
    ∃ l', writeBooking env (σ.store b l) b' = σ.store b' l' := by
  unfold writeBooking Escrow.store
  rw [h]
  simp only [AList.insert_insert]
  exact ⟨_, rfl⟩

theorem transfer_eq_ok {env : Env} {σ σ' : Escrow} {sender receiver : Address} {amount : Int}
    (h : transfer env σ sender receiver amount = .ok σ') :
    ∃ a, σ.asset = some a ∧ amount ≤ σ.balances a sender ∧
      σ' = σ.pay ⟨a, sender, receiver, amount⟩ := by
  unfold transfer at h
  split at h
  · cases h
  · rename_i a ha
    simp only [tokenTransfer, guard_eq_ok, Except.ok.injEq, Int.not_lt] at h
    obtain ⟨-, hfunds, rfl⟩ := h
    exact ⟨a, asset_eq_ok.mp ha, hfunds, rfl⟩

theorem pay_store (σ : Escrow) (b : Booking) (l : Nat) (t : Transfer) :
    (σ.store b l).pay t = (σ.pay t).store b l := rfl

/-! ## Each entry point -/

theorem initializeEscrow_effect {env : Env} {σ σ' : Escrow} {admin a : Address}
    (h : initializeEscrow env σ admin a = .ok σ') :
    Effect env σ (.initializeEscrow admin a) σ' := by
  simp only [initializeEscrow, guard_eq_ok, bind_eq_ok, requireAuth_eq_ok, pure_eq_ok] at h
  obtain ⟨hnone, _, hauth, rfl⟩ := h
  exact .initializeEscrow admin a _ (by simpa using hnone) hauth

theorem createBooking_effect {env : Env} {σ σ' : Escrow} {n : UInt64} {renter host : Address}
    {amount : Int} {visitTime : UInt64}
    (h : createBooking env σ n renter host amount visitTime = .ok σ') :
    Effect env σ (.createBooking n renter host amount visitTime) σ' := by
  simp only [createBooking, bind_eq_ok, guard_eq_ok, requireAuth_eq_ok, pure_eq_ok,
    asset_eq_ok] at h
  obtain ⟨a, ha, known, hknown, hk, hvalid, _, hauth, rfl⟩ := h
  have hnew : σ.booking? n = none := by
    rw [Bool.not_eq_true] at hk
    exact hasBooking_eq_ok_false.mp (hk ▸ hknown)
  simp only [not_or, not_not, UInt64.not_le] at hvalid
  obtain ⟨hparties, ⟨hmin, hmax⟩, htime⟩ := hvalid
  exact .createBooking n renter host amount visitTime a _ ha hnew hparties hmin hmax htime hauth

theorem fundBooking_effect {env : Env} {σ σ' : Escrow} (hk : σ.Keyed) {renter : Address}
    {n : UInt64} (h : fundBooking env σ renter n = .ok σ') :
    Effect env σ (.fundBooking renter n) σ' := by
  simp only [fundBooking, bind_eq_ok, guard_eq_ok, requireAuth_eq_ok, pure_eq_ok] at h
  obtain ⟨⟨b, σ₁⟩, hread, hrenter, hstate, _, hauth, σ₂, hpay, rfl⟩ := h
  obtain ⟨hb, hid, l, rfl⟩ := readBooking_eq_ok hk hread
  obtain ⟨a, ha, hfunds, rfl⟩ := transfer_eq_ok hpay
  simp only [not_not] at hrenter hstate
  subst hrenter
  rw [pay_store]
  obtain ⟨l', hw⟩ := writeBooking_store env (σ.pay (b.deposit a env.contract)) b
    (b.withState .funded) l rfl
  have heff := Effect.fundBooking n b a l' hb hstate hauth ha hfunds
  rw [← hw] at heff
  exact heff

theorem cancelBooking_effect {env : Env} {σ σ' : Escrow} (hk : σ.Keyed) {renter : Address}
    {n : UInt64} (h : cancelBooking env σ renter n = .ok σ') :
    Effect env σ (.cancelBooking renter n) σ' := by
  simp only [cancelBooking, bind_eq_ok, guard_eq_ok, requireAuth_eq_ok] at h
  obtain ⟨⟨b, σ₁⟩, hread, hrenter, hstate, htime, _, hauth, h⟩ := h
  obtain ⟨hb, hid, l, rfl⟩ := readBooking_eq_ok hk hread
  simp only [not_not, UInt64.not_le] at hrenter htime
  subst hrenter
  by_cases hf : b.state = .funded
  · rw [if_pos hf] at h
    simp only [bind_eq_ok, pure_eq_ok] at h
    obtain ⟨σ₂, hpay, rfl⟩ := h
    obtain ⟨a, ha, hfunds, rfl⟩ := transfer_eq_ok hpay
    rw [pay_store]
    obtain ⟨l', hw⟩ := writeBooking_store env (σ.pay (b.payout a env.contract)) b
      (b.withState .refunded) l rfl
    have heff := Effect.cancelFunded n b a l' hb hf hauth htime ha hfunds
    rw [← hw] at heff
    exact heff
  · rw [if_neg hf] at h
    simp only [bind_eq_ok, pure_eq_ok, Except.ok.injEq, exists_eq_left'] at h
    subst h
    have hc : b.state = .created := by
      by_contra hc
      exact hstate ⟨hc, hf⟩
    obtain ⟨l', hw⟩ := writeBooking_store env σ b (b.withState .refunded) l rfl
    have heff := Effect.cancelUnfunded n b l' hb hc hauth htime
    rw [← hw] at heff
    exact heff

theorem confirmVisit_effect {env : Env} {σ σ' : Escrow} (hk : σ.Keyed) {host : Address}
    {n : UInt64} (h : confirmVisit env σ host n = .ok σ') :
    Effect env σ (.confirmVisit host n) σ' := by
  simp only [confirmVisit, bind_eq_ok, guard_eq_ok, requireAuth_eq_ok, pure_eq_ok] at h
  obtain ⟨⟨b, σ₁⟩, hread, hhost, hstate, _, hauth, σ₂, hpay, rfl⟩ := h
  obtain ⟨hb, hid, l, rfl⟩ := readBooking_eq_ok hk hread
  obtain ⟨a, ha, hfunds, rfl⟩ := transfer_eq_ok hpay
  simp only [not_not, not_or, UInt64.not_lt] at hhost hstate
  subst hhost
  rw [pay_store]
  obtain ⟨l', hw⟩ := writeBooking_store env (σ.pay (b.payout a env.contract)) b
    (b.withState .released) l rfl
  have heff := Effect.confirmVisit n b a l' hb hstate.1 hauth hstate.2 ha hfunds
  rw [← hw] at heff
  exact heff

/-- Every committed call has one of the outcomes of `Effect`. -/
theorem effect_of_invoke {env : Env} {σ σ' : Escrow} (hk : σ.Keyed) {call : Call}
    (h : invoke env σ call = .ok σ') : Effect env σ call σ' := by
  obtain ⟨-, h⟩ := guard_eq_ok.mp h
  cases call with
  | initializeEscrow admin a => exact initializeEscrow_effect h
  | createBooking n renter host amount visitTime => exact createBooking_effect h
  | booking n =>
    obtain ⟨⟨b, σ₁⟩, hread, rfl⟩ := map_eq_ok.mp h
    obtain ⟨hb, hid, l, rfl⟩ := readBooking_eq_ok hk hread
    exact .booking n b l hb
  | fundBooking renter n => exact fundBooking_effect hk h
  | cancelBooking renter n => exact cancelBooking_effect hk h
  | confirmVisit host n => exact confirmVisit_effect hk h

theorem Effect.keyed {env : Env} {σ σ' : Escrow} {call : Call} (h : Effect env σ call σ')
    (hk : σ.Keyed) : σ'.Keyed := by
  cases h with
  | initializeEscrow => exact hk
  | createBooking => exact keyed_store hk _ _
  | booking => exact keyed_store hk _ _
  | fundBooking => exact keyed_store (σ := σ.pay _) hk _ _
  | cancelUnfunded => exact keyed_store hk _ _
  | cancelFunded => exact keyed_store (σ := σ.pay _) hk _ _
  | confirmVisit => exact keyed_store (σ := σ.pay _) hk _ _

/-- The accepted asset never changes once it is set. -/
theorem Effect.asset_eq {env : Env} {σ σ' : Escrow} {call : Call} (h : Effect env σ call σ')
    {a : Address} (ha : σ.asset = some a) : σ'.asset = some a := by
  cases h with
  | initializeEscrow _ _ _ hnone =>
    rw [hnone] at ha
    cases ha
  | _ => exact ha

/-! ## Traps

  Two traps would mean that the escrow cannot pay: the `unwrap` of an unset asset and a
  token transfer without funds. They come only from `transfer`. -/

def Trap.isPayment (t : Trap) : Prop := t = .unwrapNone ∨ t = .insufficientBalance

theorem readBooking_trap {env : Env} {σ : Escrow} {n : UInt64} {t : Trap} (ht : t.isPayment) :
    readBooking env σ n ≠ .error (.trap t) := by
  unfold readBooking
  intro h
  split at h
  · cases h
  · rw [guard_eq_error] at h
    rcases h with ⟨-, h⟩ | ⟨-, h⟩
    · cases h
      rcases ht with h | h <;> cases h
    · cases h

theorem requireAuth_trap {env : Env} {a : Address} {t : Trap} (ht : t.isPayment) :
    requireAuth env a ≠ .error (.trap t) := by
  unfold requireAuth
  split
  · intro h
    cases h
  · intro h
    cases h
    rcases ht with h | h <;> cases h

theorem transfer_trap {env : Env} {σ : Escrow} {sender receiver : Address} {amount : Int}
    {t : Trap} (ht : t.isPayment)
    (h : transfer env σ sender receiver amount = .error (.trap t)) :
    (t = .unwrapNone ∧ σ.asset = none) ∨
      ∃ a, t = .insufficientBalance ∧ σ.asset = some a ∧ σ.balances a sender < amount := by
  unfold transfer at h
  split at h
  · rename_i e he
    cases h
    refine .inl ⟨rfl, ?_⟩
    unfold asset at he
    split at he <;> simp_all
  · rename_i a ha
    simp only [tokenTransfer, guard_eq_error] at h
    rcases h with ⟨-, h⟩ | ⟨-, ⟨hlow, h⟩ | ⟨-, h⟩⟩
    · cases h
      rcases ht with h | h <;> cases h
    · cases h
      exact .inr ⟨a, rfl, asset_eq_ok.mp ha, hlow⟩
    · cases h

/-- A payment trap of a call on a booking is a trap of the transfer it makes. -/
theorem fundBooking_trap {env : Env} {σ : Escrow} (hk : σ.Keyed) {renter : Address} {n : UInt64}
    {t : Trap} (ht : t.isPayment) (h : fundBooking env σ renter n = .error (.trap t)) :
    ∃ b l, σ.booking? n = some b ∧
      transfer env (σ.store b l) renter env.contract b.depositAmount = .error (.trap t) := by
  simp only [fundBooking, bind_eq_error, guard_eq_error] at h
  rcases h with h | ⟨⟨b, σ₁⟩, hread, ⟨-, h⟩ | ⟨-, ⟨-, h⟩ | ⟨-, h | ⟨_, -, h | ⟨_, -, h⟩⟩⟩⟩⟩
  · exact absurd h (readBooking_trap ht)
  · cases h
  · cases h
  · exact absurd h (requireAuth_trap ht)
  · obtain ⟨hb, -, l, rfl⟩ := readBooking_eq_ok hk hread
    exact ⟨b, l, hb, h⟩
  · cases h

theorem cancelBooking_trap {env : Env} {σ : Escrow} (hk : σ.Keyed) {renter : Address} {n : UInt64}
    {t : Trap} (ht : t.isPayment) (h : cancelBooking env σ renter n = .error (.trap t)) :
    ∃ b l, σ.booking? n = some b ∧ b.state = .funded ∧
      transfer env (σ.store b l) env.contract renter b.depositAmount = .error (.trap t) := by
  simp only [cancelBooking, bind_eq_error, guard_eq_error] at h
  rcases h with h | ⟨⟨b, σ₁⟩, hread, ⟨-, h⟩ | ⟨-, ⟨-, h⟩ | ⟨-, ⟨-, h⟩ | ⟨-, h | ⟨_, -, h⟩⟩⟩⟩⟩
  · exact absurd h (readBooking_trap ht)
  · cases h
  · cases h
  · cases h
  · exact absurd h (requireAuth_trap ht)
  · obtain ⟨hb, -, l, rfl⟩ := readBooking_eq_ok hk hread
    by_cases hf : b.state = .funded
    · rw [if_pos hf] at h
      rcases bind_eq_error.mp h with h | ⟨_, -, h⟩
      · exact ⟨b, l, hb, hf, h⟩
      · cases h
    · rw [if_neg hf] at h
      rcases bind_eq_error.mp h with h | ⟨_, -, h⟩ <;> cases h

theorem confirmVisit_trap {env : Env} {σ : Escrow} (hk : σ.Keyed) {host : Address} {n : UInt64}
    {t : Trap} (ht : t.isPayment) (h : confirmVisit env σ host n = .error (.trap t)) :
    ∃ b l, σ.booking? n = some b ∧ b.state = .funded ∧
      transfer env (σ.store b l) env.contract b.renter b.depositAmount = .error (.trap t) := by
  simp only [confirmVisit, bind_eq_error, guard_eq_error] at h
  rcases h with h | ⟨⟨b, σ₁⟩, hread, ⟨-, h⟩ | ⟨-, ⟨-, h⟩ | ⟨hstate, h | ⟨_, -, h | ⟨_, -, h⟩⟩⟩⟩⟩
  · exact absurd h (readBooking_trap ht)
  · cases h
  · cases h
  · exact absurd h (requireAuth_trap ht)
  · obtain ⟨hb, -, l, rfl⟩ := readBooking_eq_ok hk hread
    simp only [not_or, not_not] at hstate
    exact ⟨b, l, hb, hstate.1, h⟩
  · cases h

/-- The calls that make no transfer raise no payment trap. -/
theorem initializeEscrow_trap {env : Env} {σ : Escrow} {admin a : Address} {t : Trap}
    (ht : t.isPayment) : initializeEscrow env σ admin a ≠ .error (.trap t) := by
  intro h
  simp only [initializeEscrow, guard_eq_error, bind_eq_error] at h
  rcases h with ⟨-, h⟩ | ⟨-, h | ⟨_, -, h⟩⟩
  · cases h
  · exact absurd h (requireAuth_trap ht)
  · cases h

theorem createBooking_trap {env : Env} {σ : Escrow} {n : UInt64} {renter host : Address}
    {amount : Int} {visitTime : UInt64} {t : Trap} (ht : t.isPayment) :
    createBooking env σ n renter host amount visitTime ≠ .error (.trap t) := by
  intro h
  simp only [createBooking, bind_eq_error, guard_eq_error] at h
  rcases h with h | ⟨_, -, h | ⟨_, -, ⟨-, h⟩ | ⟨-, ⟨-, h⟩ | ⟨-, h | ⟨_, -, h⟩⟩⟩⟩⟩
  · unfold asset at h
    split at h <;> cases h
  · unfold hasBooking at h
    split at h
    · cases h
    · rw [guard_eq_error] at h
      rcases h with ⟨-, h⟩ | ⟨-, h⟩
      · cases h
        rcases ht with h | h <;> cases h
      · cases h
  · cases h
  · cases h
  · exact absurd h (requireAuth_trap ht)
  · cases h

/-! ## What a step of the ledger does -/

/-- A step of the ledger: the clock, other people's tokens, a call that committed, or a
    call that left no trace. -/
theorem ledgerStep_cases {d : Deployment} {s s' : Ledger} {a : Action}
    (hk : s.escrow.Keyed) (h : ledgerStep d s a = some s') :
    (∃ t q, a = .close t q ∧ s.timestamp ≤ t ∧ s.sequence ≤ q ∧
      s' = { s with timestamp := t, sequence := q }) ∨
    (∃ m, a = .tokens m ∧
      s' = { s with escrow := { s.escrow with balances := othersMove d s.escrow.balances m } }) ∨
    (∃ hash auths acc call σ, a = .invoke hash auths acc call ∧ d.contract ∉ auths ∧
      invoke (s.env d hash auths acc) s.escrow call = .ok σ ∧
      Effect (s.env d hash auths acc) s.escrow call σ ∧ s' = s.commit auths call σ) ∨
    (∃ hash auths acc call f, a = .invoke hash auths acc call ∧
      invoke (s.env d hash auths acc) s.escrow call = .error f ∧ s' = s) := by
  cases a with
  | close t q =>
    simp only [ledgerStep, Option.ite_none_right_eq_some, Option.some.injEq] at h
    obtain ⟨⟨ht, hq⟩, rfl⟩ := h
    exact .inl ⟨t, q, rfl, ht, hq, rfl⟩
  | tokens m =>
    simp only [ledgerStep, Option.some.injEq] at h
    exact .inr (.inl ⟨m, rfl, h.symm⟩)
  | invoke hash auths acc call =>
    simp only [ledgerStep, Option.ite_none_left_eq_some] at h
    obtain ⟨hself, h⟩ := h
    split at h
    · rename_i σ hinv
      simp only [Option.some.injEq] at h
      exact .inr (.inr (.inl ⟨hash, auths, acc, call, σ, rfl, hself, hinv,
        effect_of_invoke hk hinv, h.symm⟩))
    · rename_i f hinv
      simp only [Option.some.injEq] at h
      exact .inr (.inr (.inr ⟨hash, auths, acc, call, f, rfl, hinv, h.symm⟩))

end PovDeposit.Contract
