/-
  Solvency: the escrow holds exactly the deposits of its funded bookings.

  `Solvent` is the invariant: bookings are stored under their own ids, exist only once an
  asset is set, never belong to the escrow itself and never carry a negative amount; the
  balance of the accepted asset is `locked`, the sum of the deposits of the funded bookings.
  `Effect.solvent` is the step lemma (one case for each outcome of a call),
  `solvent_of_exec` the run lemma.

  The balance moves by the deposit exactly when a booking enters or leaves `funded`;
  cancelling a booking that was never funded moves neither side.
-/
import PovDeposit.Contract.Effect
import Mathlib.Algebra.Order.Group.Int

namespace PovDeposit.Contract

open PovDeposit.Lib PovDeposit.Lib.Outcome

/-- What the escrow owes for a stored booking. -/
def Booking.due (b : Booking) : Int :=
  if b.state = .funded then b.depositAmount else 0

/-- The deposits of all funded bookings. -/
def locked (σ : Escrow) : Int :=
  total (fun e : Entry => e.value.due) σ.bookings

theorem due_funded {b : Booking} (h : b.state = .funded) : b.due = b.depositAmount := by
  simp [Booking.due, h]

theorem due_of_ne {b : Booking} (h : b.state ≠ .funded) : b.due = 0 := by
  simp [Booking.due, h]

theorem locked_store_new {σ : Escrow} {b : Booking} (l : Nat)
    (h : σ.booking? b.bookingId = none) : locked (σ.store b l) = b.due + locked σ :=
  total_insert_of_lookup_eq_none _ _ (booking?_eq_none.mp h)

theorem locked_store {σ : Escrow} {b old : Booking} (l : Nat)
    (h : σ.booking? b.bookingId = some old) :
    locked (σ.store b l) + old.due = b.due + locked σ := by
  obtain ⟨l', hl⟩ := booking?_eq_some.mp h
  exact total_insert_of_lookup (fun e : Entry => e.value.due) ⟨b, l⟩ hl

/-! ## What a token movement does to the escrow's balance -/

theorem moveBalance_receiver {m : Address → Address → Int} {a x y : Address} (v : Int)
    (h : x ≠ y) : moveBalance m a x y v a y = m a y + v := by
  simp [moveBalance, h.symm]

theorem moveBalance_sender {m : Address → Address → Int} {a x y : Address} (v : Int)
    (h : x ≠ y) : moveBalance m a x y v a x = m a x - v := by
  simp [moveBalance, h]

theorem othersMove_self (d : Deployment) (m m' : Address → Address → Int) (a : Address) :
    othersMove d m m' a d.contract = m a d.contract := by
  simp [othersMove]

/-! ## The invariant -/

structure Solvent (contract : Address) (σ : Escrow) : Prop where
  keyed : σ.Keyed
  asset_set : ∀ n b, σ.booking? n = some b → ∃ a, σ.asset = some a
  not_self : ∀ n b, σ.booking? n = some b → b.renter ≠ contract
  nonneg : ∀ n b, σ.booking? n = some b → 0 ≤ b.depositAmount
  unset : σ.asset = none → ∀ a, σ.balances a contract = 0
  balance : ∀ a, σ.asset = some a → σ.balances a contract = locked σ

theorem solvent_of_fresh {d : Deployment} {s : Ledger} (h : Fresh d s) :
    Solvent d.contract s.escrow := by
  have hnone : ∀ n b, s.escrow.booking? n ≠ some b := by
    intro n b hb
    rw [booking?_eq_none.mpr (by rw [h.bookings, AList.lookup_empty])] at hb
    cases hb
  refine ⟨?_, fun n b hb => absurd hb (hnone n b), fun n b hb => absurd hb (hnone n b),
    fun n b hb => absurd hb (hnone n b), fun _ => h.balances, ?_⟩
  · intro n e he
    rw [h.bookings, AList.lookup_empty] at he
    cases he
  · intro a ha
    rw [h.asset] at ha
    cases ha

section Preservation

variable {contract : Address} {σ : Escrow} (h : Solvent contract σ)
include h

/-- Without an asset there is no booking. -/
theorem Solvent.booking?_of_unset (hnone : σ.asset = none) (n : UInt64) (b : Booking) :
    σ.booking? n ≠ some b := by
  intro hb
  obtain ⟨a, ha⟩ := h.asset_set n b hb
  rw [hnone] at ha
  cases ha

theorem Solvent.locked_of_unset (hnone : σ.asset = none) : locked σ = 0 := by
  have hempty : σ.bookings.entries = [] := by
    rcases hent : σ.bookings.entries with - | ⟨⟨n, e⟩, l⟩
    · rfl
    · have hl : σ.bookings.lookup n = some e :=
        List.mem_dlookup σ.bookings.nodupKeys (by rw [hent]; exact List.mem_cons_self)
      exact absurd (booking?_eq_some.mpr ⟨e.liveUntil, hl⟩) (h.booking?_of_unset hnone n e.value)
  simp [locked, total, hempty]

/-- The escrow covers what it owes for any one booking. -/
theorem Solvent.due_le {n : UInt64} {b : Booking} (hb : σ.booking? n = some b) {a : Address}
    (ha : σ.asset = some a) : b.due ≤ σ.balances a contract := by
  obtain ⟨l, hl⟩ := booking?_eq_some.mp hb
  rw [h.balance a ha]
  refine le_total_of_lookup (fun e : Entry => e.value.due) hl ?_
  intro n' e he
  have := h.nonneg n' e.value (booking?_eq_some.mpr ⟨e.liveUntil, he⟩)
  simp only [Booking.due]
  split <;> omega

/-- A deposit that comes in adds to the escrow's balance. -/
theorem Solvent.balance_deposit {n : UInt64} {b : Booking} (hb : σ.booking? n = some b)
    (a : Address) : (σ.pay (b.deposit a contract)).balances a contract =
      σ.balances a contract + b.depositAmount :=
  moveBalance_receiver _ (h.not_self n b hb)

theorem Solvent.balance_payout {n : UInt64} {b : Booking} (hb : σ.booking? n = some b)
    (a : Address) : (σ.pay (b.payout a contract)).balances a contract =
      σ.balances a contract - b.depositAmount :=
  moveBalance_sender _ (h.not_self n b hb).symm

/-- Storing a booking, with the matching change of the escrow's balance, keeps solvency. -/
theorem Solvent.store {b : Booking} {l : Nat} {σ' : Escrow} {a : Address}
    (ha : σ.asset = some a) (hrenter : b.renter ≠ contract) (hamount : 0 ≤ b.depositAmount)
    (hasset : σ'.asset = σ.asset) (hbookings : σ'.bookings = (σ.store b l).bookings)
    (hbalance : σ'.balances a contract - σ.balances a contract =
      locked (σ.store b l) - locked σ) : Solvent contract σ' := by
  have hbooking : ∀ n, σ'.booking? n = (σ.store b l).booking? n := by
    intro n
    simp only [Escrow.booking?, hbookings]
  -- what holds of the stored bookings and of `b` holds of the bookings of `σ'`
  have hall : ∀ P : Booking → Prop, (∀ n x, σ.booking? n = some x → P x) → P b →
      ∀ n x, σ'.booking? n = some x → P x := by
    intro P hP hb n x hx
    rw [hbooking, booking?_store] at hx
    split at hx
    · cases hx
      exact hb
    · exact hP n x hx
  refine ⟨?_, fun _ _ _ => ⟨a, hasset.trans ha⟩, hall _ h.not_self hrenter,
    hall _ h.nonneg hamount, ?_, ?_⟩
  · intro n e he
    rw [hbookings] at he
    exact keyed_store h.keyed b l n e he
  · intro hn
    rw [hasset, ha] at hn
    cases hn
  · intro a' ha'
    rw [hasset, ha, Option.some.injEq] at ha'
    subst ha'
    have hlocked : locked σ' = locked (σ.store b l) := by
      simp only [locked, hbookings]
    rw [hlocked]
    have := h.balance a ha
    omega

/-- Moving a stored booking to another state keeps solvency when the escrow's balance
    changes by what the booking is due. -/
theorem Solvent.settle {n : UInt64} {b : Booking} (hb : σ.booking? n = some b) {a : Address}
    (ha : σ.asset = some a) (state : BookingState) {l : Nat} {σ' : Escrow}
    (hasset : σ'.asset = σ.asset)
    (hbookings : σ'.bookings = (σ.store (b.withState state) l).bookings)
    (hbalance : σ'.balances a contract + b.due =
      σ.balances a contract + (b.withState state).due) : Solvent contract σ' := by
  have hid : b.bookingId = n := h.keyed.bookingId hb
  have hstored : σ.booking? (b.withState state).bookingId = some b := by
    rw [withState_bookingId, hid]
    exact hb
  have hl := locked_store l hstored
  refine h.store (b := b.withState state) (l := l) ha (h.not_self n b hb) (h.nonneg n b hb)
    hasset hbookings ?_
  omega

end Preservation

/-- A committed call keeps solvency. -/
theorem Effect.solvent {env : Env} {σ σ' : Escrow} {call : Call} (heff : Effect env σ call σ')
    (h : Solvent env.contract σ) (hself : env.contract ∉ env.auths) :
    Solvent env.contract σ' := by
  cases heff with
  | initializeEscrow admin a live hnone hauth =>
    refine ⟨h.keyed, fun _ _ _ => ⟨a, rfl⟩, h.not_self, h.nonneg, fun hn => ?_, fun a' _ => ?_⟩
    · cases hn
    · exact (h.unset hnone a').trans (h.locked_of_unset hnone).symm
  | createBooking n renter host amount visitTime a live ha hnew hparties hmin hmax htime hauth =>
    have hrenter : renter ≠ env.contract := by
      rintro rfl
      exact hself hauth
    have hamount : 0 ≤ amount := by
      unfold minDeposit at hmin
      omega
    have hl := locked_store_new (b := ⟨n, renter, host, amount, visitTime, .created⟩) live hnew
    rw [due_of_ne (by simp)] at hl
    refine h.store (b := ⟨n, renter, host, amount, visitTime, .created⟩) (l := live) ha hrenter
      hamount rfl rfl ?_
    simp only [publish_balances, store_balances]
    omega
  | booking n b live hb =>
    obtain ⟨a, ha⟩ := h.asset_set n b hb
    exact h.settle (l := live) hb ha b.state rfl rfl rfl
  | fundBooking n b a live hb hstate hauth ha hfunds =>
    refine h.settle (l := live) hb ha .funded rfl rfl ?_
    rw [due_of_ne (by rw [hstate]; decide), due_funded (withState_state _ _)]
    simp only [publish_balances, store_balances, h.balance_deposit hb a, withState_depositAmount]
    omega
  | cancelUnfunded n b live hb hstate hauth htime =>
    obtain ⟨a, ha⟩ := h.asset_set n b hb
    refine h.settle (l := live) hb ha .refunded rfl rfl ?_
    rw [due_of_ne (by rw [hstate]; decide), due_of_ne (by simp)]
    rfl
  | cancelFunded n b a live hb hstate hauth htime ha hfunds =>
    refine h.settle (l := live) hb ha .refunded rfl rfl ?_
    rw [due_funded hstate, due_of_ne (by simp)]
    simp only [publish_balances, store_balances, h.balance_payout hb a]
    omega
  | confirmVisit n b a live hb hstate hauth htime ha hfunds =>
    refine h.settle (l := live) hb ha .released rfl rfl ?_
    rw [due_funded hstate, due_of_ne (by simp)]
    simp only [publish_balances, store_balances, h.balance_payout hb a]
    omega

variable {d : Deployment}

/-- Every step of the ledger keeps solvency. -/
theorem solvent_step (s : Ledger) (a : Action) (s' : Ledger) (h : Solvent d.contract s.escrow)
    (hstep : ledgerStep d s a = some s') : Solvent d.contract s'.escrow := by
  rcases ledgerStep_cases h.keyed hstep with ⟨t, q, -, -, -, rfl⟩ | ⟨m, -, rfl⟩ |
    ⟨hash, auths, acc, call, σ, -, hself, -, heff, rfl⟩ | ⟨-, -, -, -, -, -, -, rfl⟩
  · exact h
  · refine ⟨h.keyed, h.asset_set, h.not_self, h.nonneg, fun hn a => ?_, fun a ha => ?_⟩
    · exact (othersMove_self d _ m a).trans (h.unset hn a)
    · exact (othersMove_self d _ m a).trans (h.balance a ha)
  · exact heff.solvent h hself
  · exact h

theorem solvent_of_exec {s₀ s : Ledger} {as : List Action} (h₀ : Fresh d s₀)
    (hrun : (ledgerMachine d).exec s₀ as = some s) : Solvent d.contract s.escrow :=
  (ledgerMachine d).exec_invariant (I := fun s => Solvent d.contract s.escrow) solvent_step hrun
    (solvent_of_fresh h₀)

/-- No step changes the accepted asset. -/
theorem asset_step (s : Ledger) (a : Action) (s' : Ledger)
    (h : Solvent d.contract s.escrow) (hstep : ledgerStep d s a = some s') {x : Address}
    (hx : s.escrow.asset = some x) : s'.escrow.asset = some x := by
  rcases ledgerStep_cases h.keyed hstep with ⟨t, q, -, -, -, rfl⟩ | ⟨m, -, rfl⟩ |
    ⟨hash, auths, acc, call, σ, -, hself, -, heff, rfl⟩ | ⟨-, -, -, -, -, -, -, rfl⟩
  · exact hx
  · exact hx
  · exact heff.asset_eq hx
  · exact hx

theorem asset_exec {s s' : Ledger} {as : List Action} (h : Solvent d.contract s.escrow)
    (hrun : (ledgerMachine d).exec s as = some s') {x : Address}
    (hx : s.escrow.asset = some x) : s'.escrow.asset = some x :=
  ((ledgerMachine d).exec_invariant
    (I := fun s => Solvent d.contract s.escrow ∧ s.escrow.asset = some x)
    (fun s a s' hs hstep => ⟨solvent_step s a s' hs.1 hstep, asset_step s a s' hs.1 hstep hs.2⟩)
    hrun ⟨h, hx⟩).2

/-! ## No payment is refused for lack of funds -/

/-- In a solvent state the asset of a stored booking unwraps. -/
theorem no_unwrap (env : Env) {σ : Escrow} (h : Solvent env.contract σ) (call : Call) :
    invoke env σ call ≠ .error (.trap .unwrapNone) := by
  intro hinv
  have ht : Trap.unwrapNone.isPayment := .inl rfl
  -- a transfer on a stored booking finds the asset
  have hno : ∀ n b l sender receiver amount, σ.booking? n = some b →
      transfer env (σ.store b l) sender receiver amount ≠ .error (.trap .unwrapNone) := by
    intro n b l sender receiver amount hb htrap
    obtain ⟨a, ha⟩ := h.asset_set n b hb
    rcases transfer_trap ht htrap with ⟨-, hnone⟩ | ⟨-, h, -⟩
    · rw [store_asset, ha] at hnone
      cases hnone
    · cases h
  rcases guard_eq_error.mp hinv with ⟨-, hinv⟩ | ⟨-, hinv⟩
  · cases hinv
  cases call with
  | initializeEscrow => exact initializeEscrow_trap ht hinv
  | createBooking => exact createBooking_trap ht hinv
  | booking => exact readBooking_trap ht (map_eq_error.mp hinv)
  | fundBooking =>
    obtain ⟨b, l, hb, htrap⟩ := fundBooking_trap h.keyed ht hinv
    exact hno _ b l _ _ _ hb htrap
  | cancelBooking =>
    obtain ⟨b, l, hb, -, htrap⟩ := cancelBooking_trap h.keyed ht hinv
    exact hno _ b l _ _ _ hb htrap
  | confirmVisit =>
    obtain ⟨b, l, hb, -, htrap⟩ := confirmVisit_trap h.keyed ht hinv
    exact hno _ b l _ _ _ hb htrap

/-- In a solvent state the escrow can pay any funded booking back. -/
theorem can_pay (env : Env) {σ : Escrow} (h : Solvent env.contract σ) {n : UInt64}
    {b : Booking} {l : Nat} {receiver : Address} (hb : σ.booking? n = some b)
    (hstate : b.state = .funded) :
    transfer env (σ.store b l) env.contract receiver b.depositAmount ≠
      .error (.trap .insufficientBalance) := by
  intro htrap
  rcases transfer_trap (.inr rfl) htrap with ⟨h, -⟩ | ⟨a, -, ha, hlow⟩
  · cases h
  · have hdue := h.due_le hb (a := a) ha
    rw [due_funded hstate] at hdue
    rw [store_balances] at hlow
    omega

theorem cancel_funds (env : Env) {σ : Escrow} (h : Solvent env.contract σ)
    (renter : Address) (n : UInt64) :
    invoke env σ (.cancelBooking renter n) ≠ .error (.trap .insufficientBalance) := by
  intro hinv
  rcases guard_eq_error.mp hinv with ⟨-, hinv⟩ | ⟨-, hinv⟩
  · cases hinv
  · obtain ⟨b, l, hb, hstate, htrap⟩ := cancelBooking_trap h.keyed (.inr rfl) hinv
    exact can_pay env h hb hstate htrap

theorem confirm_funds (env : Env) {σ : Escrow} (h : Solvent env.contract σ)
    (host : Address) (n : UInt64) :
    invoke env σ (.confirmVisit host n) ≠ .error (.trap .insufficientBalance) := by
  intro hinv
  rcases guard_eq_error.mp hinv with ⟨-, hinv⟩ | ⟨-, hinv⟩
  · cases hinv
  · obtain ⟨b, l, hb, hstate, htrap⟩ := confirmVisit_trap h.keyed (.inr rfl) hinv
    exact can_pay env h hb hstate htrap

/-- **Solvency over whole runs.** From a fresh deployment, after any run: the accepted asset
    is never replaced later, the escrow's balance of it is the sum of the deposits of the
    funded bookings, no payout is refused for lack of funds, and no call fails at the
    `unwrap` of the asset. -/
theorem escrow_solvency (s₀ s : Ledger) (as : List Action) (h₀ : Fresh d s₀)
    (hrun : (ledgerMachine d).exec s₀ as = some s) :
    (∀ a bs t, s.escrow.asset = some a → (ledgerMachine d).exec s bs = some t →
      t.escrow.asset = some a) ∧
    (∀ a, s.escrow.asset = some a → s.escrow.balances a d.contract = locked s.escrow) ∧
    (∀ hash auths acc renter n, invoke (s.env d hash auths acc) s.escrow
      (.cancelBooking renter n) ≠ .error (.trap .insufficientBalance)) ∧
    (∀ hash auths acc host n, invoke (s.env d hash auths acc) s.escrow
      (.confirmVisit host n) ≠ .error (.trap .insufficientBalance)) ∧
    (∀ hash auths acc call, invoke (s.env d hash auths acc) s.escrow call ≠
      .error (.trap .unwrapNone)) := by
  have hs := solvent_of_exec h₀ hrun
  refine ⟨fun a bs t ha hr => asset_exec hs hr ha, hs.balance, ?_, ?_, ?_⟩
  · intro hash auths acc
    exact cancel_funds (s.env d hash auths acc) hs
  · intro hash auths acc
    exact confirm_funds (s.env d hash auths acc) hs
  · intro hash auths acc
    exact no_unwrap (s.env d hash auths acc) hs

/-- A run that initialises the escrow, creates booking 1 and funds it. -/
def fundedRun : List Action :=
  [.invoke "t0" ["admin"] (fun _ _ _ _ => true) (.initializeEscrow "admin" "XLM"),
   .invoke "t1" ["renter"] (fun _ _ _ _ => true) (.createBooking 1 "renter" "host" 1000000 2000),
   .invoke "t2" ["renter"] (fun _ _ _ _ => true) (.fundBooking "renter" 1)]

theorem escrow_solvency_funded :
    ∃ s, (ledgerMachine ⟨"escrow", 300000⟩).exec
        (freshLedger ⟨"escrow", 300000⟩ 1000 7 500000 fun _ _ => 10000000) fundedRun = some s ∧
      locked s.escrow = 1000000 ∧ s.escrow.balances "XLM" "escrow" = locked s.escrow := by
  obtain ⟨s, hrun, hlocked, hasset⟩ : ∃ s, (ledgerMachine ⟨"escrow", 300000⟩).exec
      (freshLedger ⟨"escrow", 300000⟩ 1000 7 500000 fun _ _ => 10000000) fundedRun = some s ∧
      locked s.escrow = 1000000 ∧ s.escrow.asset = some "XLM" := ⟨_, rfl, rfl, rfl⟩
  have hsolvent := escrow_solvency _ s fundedRun (fresh_freshLedger _ _ _ _ _) hrun
  exact ⟨s, hrun, hlocked, hsolvent.2.1 "XLM" hasset⟩

end PovDeposit.Contract
