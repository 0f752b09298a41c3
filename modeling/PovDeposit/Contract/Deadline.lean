/-
  The visit time, as the deadline between the two settling calls.

  `cancelBooking` and `confirmVisit` guard the same booking with opposite comparisons, so at
  every instant one of them pays the deposit back and the other is refused
  (`deposit_settles_by_deadline`). Whether the payout goes through depends on all other
  bookings: it is the solvency of the escrow.

  `fundBooking` makes no such comparison. A booking created in time can be funded after its
  visit time, when its renter cannot cancel any more; `funding_withdrawable_iff` says that
  this is the only way to lock a deposit up.
-/
import PovDeposit.Contract.Solvency
import PovDeposit.Contract.Settlement

namespace PovDeposit.Contract

open PovDeposit.Lib PovDeposit.Lib.Outcome

/-- The contract instance and the entry of booking `n` are not archived in ledger `sequence`. -/
structure Live (sequence : Nat) (σ : Escrow) (n : UInt64) : Prop where
  inst : sequence ≤ σ.instanceLiveUntil
  entry : ∀ e, σ.bookings.lookup n = some e → sequence ≤ e.liveUntil

/-- From `σ` to `σ'` the deposit of booking `n`, which was `b`, went from the escrow to the
    renter, and nothing else moved. -/
structure PaidBack (contract : Address) (n : UInt64) (b : Booking) (state : BookingState)
    (σ σ' : Escrow) : Prop where
  settled : σ'.booking? n = some (b.withState state)
  others : ∀ m, m ≠ n → σ'.bookings.lookup m = σ.bookings.lookup m
  balances : ∃ a, σ.asset = some a ∧
    σ'.balances a b.renter = σ.balances a b.renter + b.depositAmount ∧
    σ'.balances a contract = σ.balances a contract - b.depositAmount ∧
    ∀ x y, ¬ (x = a ∧ (y = b.renter ∨ y = contract)) → σ'.balances x y = σ.balances x y

section Calls

variable (d : Deployment) (s : Ledger) (hash : String) (auths : List Address)
  (acc : Address → Address → Address → Int → Bool) (call : Call)

/-- `call` succeeds in `s` and pays booking `n` back. -/
def PaysBack (n : UInt64) (b : Booking) (state : BookingState) : Prop :=
  ∃ σ, invoke (s.env d hash auths acc) s.escrow call = .ok σ ∧
    ledgerStep d s (.invoke hash auths acc call) = some (s.commit auths call σ) ∧
    PaidBack d.contract n b state s.escrow σ

/-- `call` fails in `s` with `InvalidBookingState` and leaves everything as it was. -/
def Refused : Prop :=
  invoke (s.env d hash auths acc) s.escrow call = .error (.error .invalidBookingState) ∧
    ledgerStep d s (.invoke hash auths acc call) = some s

variable {d s hash auths acc call}

theorem not_refused_of_paysBack {n : UInt64} {b : Booking} {state : BookingState}
    (h : PaysBack d s hash auths acc call n b state) : ¬ Refused d s hash auths acc call := by
  rintro ⟨herror, -⟩
  obtain ⟨σ, hok, -⟩ := h
  rw [hok] at herror
  cases herror

theorem refused_of_invoke (hself : d.contract ∉ auths)
    (h : invoke (s.env d hash auths acc) s.escrow call = .error (.error .invalidBookingState)) :
    Refused d s hash auths acc call := by
  refine ⟨h, ?_⟩
  simp only [ledgerStep, if_neg hself, h]

end Calls

/-! ## Calls on a live booking -/

theorem extendTtl_le (env : Env) {live : Nat} (h : env.sequence ≤ live) (threshold extendTo : Nat) :
    env.sequence ≤ extendTtl env live threshold extendTo := by
  unfold extendTtl
  split <;> omega

/-- A live booking is read, and its entry renewed. -/
theorem readBooking_store_of_live (env : Env) {σ : Escrow} (hk : σ.Keyed) {n : UInt64} {b : Booking}
    (hb : σ.booking? n = some b)
    (hlive : ∀ e, σ.bookings.lookup n = some e → env.sequence ≤ e.liveUntil) :
    ∃ l, env.sequence ≤ l ∧ readBooking env σ n = .ok (b, σ.store b l) := by
  obtain ⟨live, he⟩ := booking?_eq_some.mp hb
  have hle : env.sequence ≤ live := hlive _ he
  have hid : b.bookingId = n := hk n _ he
  refine ⟨extendTtl env live ttlThreshold ttlExtendTo, extendTtl_le env hle _ _, ?_⟩
  rw [readBooking_of_live env he hle, Escrow.store, hid]

theorem transfer_of_funds {env : Env} {σ : Escrow} {a sender receiver : Address} {amount : Int}
    (ha : σ.asset = some a) (hacc : env.tokenAccepts a sender receiver amount = true)
    (hfunds : amount ≤ σ.balances a sender) :
    transfer env σ sender receiver amount = .ok (σ.pay ⟨a, sender, receiver, amount⟩) := by
  unfold transfer
  rw [asset_eq_ok.mpr ha]
  simp only [tokenTransfer, hacc, Int.not_lt.mpr hfunds, if_false, Bool.true_eq_false]
  rfl

theorem transfer_accepted {env : Env} {σ σ' : Escrow} {sender receiver : Address} {amount : Int}
    (h : transfer env σ sender receiver amount = .ok σ') {a : Address} (ha : σ.asset = some a) :
    env.tokenAccepts a sender receiver amount = true := by
  unfold transfer at h
  rw [asset_eq_ok.mpr ha] at h
  simp only [tokenTransfer, guard_eq_ok, Bool.not_eq_false] at h
  exact h.1

theorem requireAuth_of_mem {env : Env} {a : Address} (h : a ∈ env.auths) :
    requireAuth env a = .ok () := requireAuth_eq_ok.mpr h

theorem moveBalance_other (m : Address → Address → Int) {a x y sender receiver : Address} (v : Int)
    (h : ¬ (x = a ∧ (y = receiver ∨ y = sender))) :
    moveBalance m a sender receiver v x y = m x y := by
  unfold moveBalance
  by_cases hx : x = a
  · have hy : y ≠ receiver ∧ y ≠ sender := by simpa [hx] using h
    subst hx
    simp [hy.1, hy.2]
  · simp [hx]

/-- The payout of a booking, with its new state written, pays it back. -/
theorem paidBack_payout {contract : Address} {σ : Escrow} (h : Solvent contract σ) {n : UInt64}
    {b : Booking} (hb : σ.booking? n = some b) {a : Address} (ha : σ.asset = some a)
    (state : BookingState) (l : Nat) (env : Env) (ev : ContractEvent) :
    PaidBack contract n b state σ
      (publish env ((σ.pay (b.payout a contract)).store (b.withState state) l) ev) := by
  have hne : contract ≠ b.renter := (h.not_self n b hb).symm
  have hid : b.bookingId = n := h.keyed.bookingId hb
  refine ⟨?_, fun m hm => ?_, a, ha, ?_, ?_, fun x y hxy => ?_⟩
  · rw [booking?_publish, booking?_store, withState_bookingId, if_pos hid.symm]
  · have hm' : m ≠ (b.withState state).bookingId := hid ▸ hm
    simp only [publish_bookings, Escrow.store, pay_bookings, lookup_insert, if_neg hm']
  · exact moveBalance_receiver _ hne
  · exact moveBalance_sender _ hne
  · exact moveBalance_other _ _ hxy

section Settling

variable {d : Deployment} {s : Ledger} (h : Solvent d.contract s.escrow) {n : UInt64} {b : Booking}
  (hb : s.escrow.booking? n = some b) (hfunded : b.state = .funded) (hash : String) (auths : List Address)
  (acc : Address → Address → Address → Int → Bool)
include h hb hfunded

/-- The escrow's transfer of the deposit goes through, whatever the renewal of the entry. -/
theorem payout_of_funded
    (hpay : ∀ a, s.escrow.asset = some a → acc a d.contract b.renter b.depositAmount = true)
    (l : Nat) :
    ∃ a, s.escrow.asset = some a ∧ transfer (s.env d hash auths acc) (s.escrow.store b l) d.contract
      b.renter b.depositAmount = .ok ((s.escrow.store b l).pay (b.payout a d.contract)) := by
  obtain ⟨a, ha⟩ := h.asset_set n b hb
  have hdue := h.due_le hb ha
  rw [due_funded hfunded] at hdue
  exact ⟨a, ha, transfer_of_funds ha (hpay a ha) hdue⟩

theorem cancel_pays (hlive : Live s.sequence s.escrow n) (hself : d.contract ∉ auths)
    (hauth : b.renter ∈ auths)
    (hpay : ∀ a, s.escrow.asset = some a → acc a d.contract b.renter b.depositAmount = true)
    (htime : s.timestamp < b.visitTime) :
    PaysBack d s hash auths acc (.cancelBooking b.renter n) n b .refunded := by
  obtain ⟨l, -, hread⟩ := readBooking_store_of_live (s.env d hash auths acc) h.keyed hb hlive.entry
  obtain ⟨a, ha, htransfer⟩ := payout_of_funded h hb hfunded hash auths acc hpay l
  obtain ⟨l', hwrite⟩ := writeBooking_store (s.env d hash auths acc)
    (s.escrow.pay (b.payout a d.contract)) b (b.withState .refunded) l rfl
  have hinvoke : invoke (s.env d hash auths acc) s.escrow (.cancelBooking b.renter n) =
      .ok (publish (s.env d hash auths acc)
        ((s.escrow.pay (b.payout a d.contract)).store (b.withState .refunded) l')
        (.depositRefunded n b.depositAmount)) := by
    have hinst : ¬ s.escrow.instanceLiveUntil < (s.env d hash auths acc).sequence :=
      Nat.not_lt.mpr hlive.inst
    have hbefore : ¬ b.visitTime ≤ (s.env d hash auths acc).timestamp :=
      UInt64.not_le.mpr htime
    have hrequire : requireAuth (s.env d hash auths acc) b.renter = .ok () :=
      requireAuth_of_mem hauth
    have hcontract : (s.env d hash auths acc).contract = d.contract := rfl
    simp only [invoke, if_neg hinst, cancelBooking, hread, bind, Except.bind, hfunded, ne_eq,
      not_true_eq_false, if_false, and_false, if_neg hbefore, hrequire, if_true, hcontract,
      htransfer, pure, Except.pure]
    rw [pay_store]
    exact congrArg (fun σ => Except.ok (publish _ σ _)) hwrite
  refine ⟨_, hinvoke, ?_, paidBack_payout h hb ha .refunded l' _ _⟩
  simp only [ledgerStep, if_neg hself, hinvoke]

theorem confirm_pays (hlive : Live s.sequence s.escrow n) (hself : d.contract ∉ auths)
    (hauth : b.host ∈ auths)
    (hpay : ∀ a, s.escrow.asset = some a → acc a d.contract b.renter b.depositAmount = true)
    (htime : b.visitTime ≤ s.timestamp) :
    PaysBack d s hash auths acc (.confirmVisit b.host n) n b .released := by
  obtain ⟨l, -, hread⟩ := readBooking_store_of_live (s.env d hash auths acc) h.keyed hb hlive.entry
  obtain ⟨a, ha, htransfer⟩ := payout_of_funded h hb hfunded hash auths acc hpay l
  obtain ⟨l', hwrite⟩ := writeBooking_store (s.env d hash auths acc)
    (s.escrow.pay (b.payout a d.contract)) b (b.withState .released) l rfl
  have hinvoke : invoke (s.env d hash auths acc) s.escrow (.confirmVisit b.host n) =
      .ok (publish (s.env d hash auths acc)
        ((s.escrow.pay (b.payout a d.contract)).store (b.withState .released) l')
        (.visitConfirmed n b.depositAmount)) := by
    have hinst : ¬ s.escrow.instanceLiveUntil < (s.env d hash auths acc).sequence :=
      Nat.not_lt.mpr hlive.inst
    have hafter : ¬ (s.env d hash auths acc).timestamp < b.visitTime :=
      UInt64.not_lt.mpr htime
    have hrequire : requireAuth (s.env d hash auths acc) b.host = .ok () :=
      requireAuth_of_mem hauth
    have hcontract : (s.env d hash auths acc).contract = d.contract := rfl
    simp only [invoke, if_neg hinst, confirmVisit, hread, bind, Except.bind, hfunded, ne_eq,
      not_true_eq_false, if_false, false_or, if_neg hafter, hrequire, hcontract, htransfer, pure,
      Except.pure]
    rw [pay_store]
    exact congrArg (fun σ => Except.ok (publish _ σ _)) hwrite
  refine ⟨_, hinvoke, ?_, paidBack_payout h hb ha .released l' _ _⟩
  simp only [ledgerStep, if_neg hself, hinvoke]

theorem cancel_refused (hlive : Live s.sequence s.escrow n) (hself : d.contract ∉ auths)
    (htime : b.visitTime ≤ s.timestamp) :
    Refused d s hash auths acc (.cancelBooking b.renter n) := by
  obtain ⟨l, -, hread⟩ := readBooking_store_of_live (s.env d hash auths acc) h.keyed hb hlive.entry
  refine refused_of_invoke hself ?_
  have hinst : ¬ s.escrow.instanceLiveUntil < (s.env d hash auths acc).sequence :=
    Nat.not_lt.mpr hlive.inst
  have hafter : b.visitTime ≤ (s.env d hash auths acc).timestamp := htime
  simp only [invoke, if_neg hinst, cancelBooking, hread, bind, Except.bind, hfunded, ne_eq,
    not_true_eq_false, if_false, and_false, if_pos hafter]

omit hfunded in
theorem confirm_refused (hlive : Live s.sequence s.escrow n) (hself : d.contract ∉ auths)
    (htime : s.timestamp < b.visitTime) :
    Refused d s hash auths acc (.confirmVisit b.host n) := by
  obtain ⟨l, -, hread⟩ := readBooking_store_of_live (s.env d hash auths acc) h.keyed hb hlive.entry
  refine refused_of_invoke hself ?_
  have hinst : ¬ s.escrow.instanceLiveUntil < (s.env d hash auths acc).sequence :=
    Nat.not_lt.mpr hlive.inst
  have hbefore : (s.env d hash auths acc).timestamp < b.visitTime := htime
  have hguard : b.state ≠ .funded ∨ (s.env d hash auths acc).timestamp < b.visitTime := .inr hbefore
  simp only [invoke, if_neg hinst, confirmVisit, hread, bind, Except.bind, ne_eq,
    not_true_eq_false, if_false]
  exact if_pos hguard

end Settling

/-! ## What a payout needs -/

/-- Nothing but the visit time stands between booking `n`, which is `b`, and its payout. -/
structure Payable (env : Env) (σ : Escrow) (n : UInt64) (b : Booking) : Prop where
  live : Live env.sequence σ n
  accepted : ∀ a, σ.asset = some a →
    env.tokenAccepts a env.contract b.renter b.depositAmount = true

section Payable

variable {env : Env} {σ σ' : Escrow} (hk : σ.Keyed) {n : UInt64} {b : Booking}
  (hb : σ.booking? n = some b) (hfunded : b.state = .funded)
include hk hb hfunded

/-- A cancellation that commits found what it asks for. -/
theorem payable_of_cancel {renter : Address}
    (h : invoke env σ (.cancelBooking renter n) = .ok σ') :
    Payable env σ n b ∧ env.timestamp < b.visitTime := by
  obtain ⟨hinst, h⟩ := guard_eq_ok.mp h
  simp only [cancelBooking, bind_eq_ok, guard_eq_ok] at h
  obtain ⟨⟨x, σ₁⟩, hread, hrenter, -, htime, _, -, h⟩ := h
  obtain ⟨hx, -, l, rfl⟩ := readBooking_eq_ok hk hread
  obtain rfl : b = x := Option.some.inj (hb.symm.trans hx)
  have hrenter' : b.renter = renter := not_not.mp hrenter
  simp only [if_pos hfunded, bind_eq_ok, ← hrenter'] at h
  obtain ⟨σ₂, hpay, -⟩ := h
  refine ⟨⟨⟨Nat.not_lt.mp hinst, fun e he => ?_⟩, fun a ha => transfer_accepted hpay ha⟩,
    UInt64.not_le.mp htime⟩
  obtain ⟨e', he', hle⟩ := readBooking_live hread
  rw [Option.some.inj (he.symm.trans he')]
  exact hle

omit hfunded in
theorem payable_of_confirm {host : Address} (h : invoke env σ (.confirmVisit host n) = .ok σ') :
    Payable env σ n b ∧ b.visitTime ≤ env.timestamp := by
  obtain ⟨hinst, h⟩ := guard_eq_ok.mp h
  simp only [confirmVisit, bind_eq_ok, guard_eq_ok] at h
  obtain ⟨⟨x, σ₁⟩, hread, -, hguard, _, -, σ₂, hpay, -⟩ := h
  obtain ⟨hx, -, l, rfl⟩ := readBooking_eq_ok hk hread
  obtain rfl : b = x := Option.some.inj (hb.symm.trans hx)
  refine ⟨⟨⟨Nat.not_lt.mp hinst, fun e he => ?_⟩, fun a ha => transfer_accepted hpay ha⟩,
    UInt64.not_lt.mp (not_or.mp hguard).2⟩
  obtain ⟨e', he', hle⟩ := readBooking_live hread
  rw [Option.some.inj (he.symm.trans he')]
  exact hle

theorem events_of_cancel {renter : Address} (h : invoke env σ (.cancelBooking renter n) = .ok σ') :
    σ'.events = σ.events ++ [⟨env.txHash, env.sequence, .depositRefunded n b.depositAmount⟩] := by
  cases effect_of_invoke hk h with
  | cancelUnfunded n x live hx hstate =>
    obtain rfl := Option.some.inj (hb.symm.trans hx)
    rw [hfunded] at hstate
    cases hstate
  | cancelFunded n x a live hx =>
    obtain rfl := Option.some.inj (hb.symm.trans hx)
    rfl

omit hfunded in
theorem events_of_confirm {host : Address} (h : invoke env σ (.confirmVisit host n) = .ok σ') :
    σ'.events = σ.events ++ [⟨env.txHash, env.sequence, .visitConfirmed n b.depositAmount⟩] := by
  cases effect_of_invoke hk h with
  | confirmVisit n x a live hx =>
    obtain rfl := Option.some.inj (hb.symm.trans hx)
    rfl

end Payable

/-- **The two settling calls are complements.** In any state `s` reached from a fresh
    deployment let booking `n` be funded, and let the ledger close at any later `t` with the
    entries still live. A cancellation authorised by the renter pays the deposit back exactly
    if `t` is before the visit time and is refused exactly if it is not; a confirmation
    authorised by the host does so the other way round. -/
theorem deposit_settles_by_deadline {d : Deployment} (s₀ s s' : Ledger) (as : List Action)
    (h₀ : Fresh d s₀) (hrun : (ledgerMachine d).exec s₀ as = some s)
    (t : UInt64) (q : Nat) (hclose : ledgerStep d s (.close t q) = some s')
    (n : UInt64) (b : Booking) (hb : s.escrow.booking? n = some b) (hfunded : b.state = .funded)
    (hlive : Live s'.sequence s'.escrow n)
    (hash hash' : String) (auths auths' : List Address)
    (acc acc' : Address → Address → Address → Int → Bool)
    (hrenter : b.renter ∈ auths) (hhost : b.host ∈ auths')
    (hself : d.contract ∉ auths) (hself' : d.contract ∉ auths')
    (hacc : ∀ a, acc a d.contract b.renter b.depositAmount = true)
    (hacc' : ∀ a, acc' a d.contract b.renter b.depositAmount = true) :
    (PaysBack d s' hash auths acc (.cancelBooking b.renter n) n b .refunded ↔ t < b.visitTime) ∧
    (Refused d s' hash' auths' acc' (.confirmVisit b.host n) ↔ t < b.visitTime) ∧
    (PaysBack d s' hash' auths' acc' (.confirmVisit b.host n) n b .released ↔ b.visitTime ≤ t) ∧
    (Refused d s' hash auths acc (.cancelBooking b.renter n) ↔ b.visitTime ≤ t) := by
  have hsolvent := solvent_of_exec h₀ hrun
  have hs' : Solvent d.contract s'.escrow := solvent_step s _ s' hsolvent hclose
  obtain ⟨htime, hb'⟩ : s'.timestamp = t ∧ s'.escrow.booking? n = some b := by
    simp only [ledgerStep, Option.ite_none_right_eq_some, Option.some.injEq] at hclose
    rw [← hclose.2]
    exact ⟨rfl, hb⟩
  subst htime
  have hcancel := cancel_pays hs' hb' hfunded hash auths acc hlive hself hrenter
    fun a _ => hacc a
  have hconfirm := confirm_pays hs' hb' hfunded hash' auths' acc' hlive hself' hhost
    fun a _ => hacc' a
  have hcancel' := cancel_refused hs' hb' hfunded hash auths acc hlive hself
  have hconfirm' := confirm_refused hs' hb' hash' auths' acc' hlive hself'
  -- a call that pays is not refused, so each implication turns round
  refine ⟨⟨fun hpays => ?_, hcancel⟩, ⟨fun hrefused => ?_, hconfirm'⟩,
    ⟨fun hpays => ?_, hconfirm⟩, ⟨fun hrefused => ?_, hcancel'⟩⟩
  · by_contra hlate
    exact not_refused_of_paysBack hpays (hcancel' (UInt64.not_lt.mp hlate))
  · by_contra hlate
    exact not_refused_of_paysBack (hconfirm (UInt64.not_lt.mp hlate)) hrefused
  · by_contra hearly
    exact not_refused_of_paysBack hpays (hconfirm' (UInt64.not_le.mp hearly))
  · by_contra hearly
    exact not_refused_of_paysBack (hcancel (UInt64.not_le.mp hearly)) hrefused

theorem deposit_settles_by_deadline_funded :
    ∃ s s' b, (ledgerMachine ⟨"escrow", 300000⟩).exec
        (freshLedger ⟨"escrow", 300000⟩ 1000 7 500000 fun _ _ => 10000000) fundedRun = some s ∧
      ledgerStep ⟨"escrow", 300000⟩ s (.close 2000 9) = some s' ∧
      s.escrow.booking? 1 = some b ∧ b.visitTime = 2000 ∧
      PaysBack ⟨"escrow", 300000⟩ s' "t3" ["host"] (fun _ _ _ _ => true)
        (.confirmVisit "host" 1) 1 b .released ∧
      Refused ⟨"escrow", 300000⟩ s' "t4" ["renter"] (fun _ _ _ _ => true)
        (.cancelBooking "renter" 1) := by
  obtain ⟨s, s', b, hrun, hclose, hb, hfunded, hlive⟩ : ∃ s s' b,
      (ledgerMachine ⟨"escrow", 300000⟩).exec
        (freshLedger ⟨"escrow", 300000⟩ 1000 7 500000 fun _ _ => 10000000) fundedRun = some s ∧
      ledgerStep ⟨"escrow", 300000⟩ s (.close 2000 9) = some s' ∧
      s.escrow.booking? 1 = some b ∧
      b = ⟨1, "renter", "host", 1000000, 2000, .funded⟩ ∧ Live s'.sequence s'.escrow 1 := by
    refine ⟨_, _, _, rfl, rfl, rfl, rfl, by decide, ?_⟩
    rintro e he
    cases he
    decide
  subst hfunded
  have h := deposit_settles_by_deadline _ s s' fundedRun (fresh_freshLedger _ _ _ _ _) hrun 2000 9
    hclose 1 _ hb rfl hlive "t4" "t3" ["renter"] ["host"] (fun _ _ _ _ => true)
    (fun _ _ _ _ => true) (by decide) (by decide) (by decide) (by decide) (fun _ => rfl) fun _ => rfl
  exact ⟨s, s', _, hrun, hclose, hb, rfl, h.2.2.1.mpr (by decide), h.2.2.2.mpr (by decide)⟩

/-! ## Funding after the deadline -/

/-- What `fundBooking`, called by the renter of booking `n`, asks of the state before it. -/
structure Fundable (env : Env) (σ : Escrow) (n : UInt64) (b : Booking) : Prop where
  live : Live env.sequence σ n
  booking : σ.booking? n = some b
  created : b.state = .created
  authorised : b.renter ∈ env.auths
  funds : ∃ a, σ.asset = some a ∧
    env.tokenAccepts a b.renter env.contract b.depositAmount = true ∧
    b.depositAmount ≤ σ.balances a b.renter

/-- A call of `fundBooking` that commits found what it asks for. -/
theorem fundable_of_invoke {env : Env} {σ σ' : Escrow} (hk : σ.Keyed) {renter : Address}
    {n : UInt64} (h : invoke env σ (.fundBooking renter n) = .ok σ') :
    ∃ b, b.renter = renter ∧ Fundable env σ n b := by
  obtain ⟨hinst, h⟩ := guard_eq_ok.mp h
  simp only [fundBooking, bind_eq_ok, guard_eq_ok, requireAuth_eq_ok] at h
  obtain ⟨⟨b, σ₁⟩, hread, hrenter, hstate, _, hauth, σ₂, hpay, -⟩ := h
  obtain ⟨hb, -, l, rfl⟩ := readBooking_eq_ok hk hread
  obtain ⟨a, ha, hfunds, -⟩ := transfer_eq_ok hpay
  obtain rfl := not_not.mp hrenter
  have hinst' : env.sequence ≤ σ.instanceLiveUntil := Nat.not_lt.mp hinst
  have hentry : ∀ e, σ.bookings.lookup n = some e → env.sequence ≤ e.liveUntil := by
    obtain ⟨e, he, hle⟩ := readBooking_live hread
    intro x hx
    obtain rfl : e = x := Option.some.inj (he.symm.trans hx)
    exact hle
  exact ⟨b, rfl, ⟨hinst', hentry⟩, hb, not_not.mp hstate, hauth, a, ha,
    transfer_accepted hpay ha, hfunds⟩

/-- `writeBooking_store`, for a live entry. -/
theorem writeBooking_store_live {env : Env} (σ : Escrow) (b b' : Booking) {l : Nat}
    (h : b'.bookingId = b.bookingId) (hl : env.sequence ≤ l) :
    ∃ l', env.sequence ≤ l' ∧ writeBooking env (σ.store b l) b' = σ.store b' l' := by
  refine ⟨extendTtl env l ttlThreshold ttlExtendTo, extendTtl_le env hl _ _, ?_⟩
  unfold writeBooking Escrow.store
  rw [h]
  simp only [AList.insert_insert, AList.lookup_insert]

/-- Where `fundBooking` finds what it asks for it commits, and leaves the booking funded in a
    live entry. -/
theorem invoke_of_fundable {env : Env} {σ : Escrow} (hk : σ.Keyed) {n : UInt64} {b : Booking}
    (h : Fundable env σ n b) :
    ∃ σ', invoke env σ (.fundBooking b.renter n) = .ok σ' ∧
      σ'.booking? n = some (b.withState .funded) ∧ Live env.sequence σ' n := by
  obtain ⟨a, ha, hacc, hfunds⟩ := h.funds
  obtain ⟨l, hl, hread⟩ := readBooking_store_of_live env hk h.booking h.live.entry
  have htransfer : transfer env (σ.store b l) b.renter env.contract b.depositAmount =
      .ok ((σ.store b l).pay (b.deposit a env.contract)) := transfer_of_funds ha hacc hfunds
  have hinst : ¬ σ.instanceLiveUntil < env.sequence := Nat.not_lt.mpr h.live.inst
  have hrequire : requireAuth env b.renter = .ok () := requireAuth_of_mem h.authorised
  obtain ⟨l', hl', hwrite⟩ := writeBooking_store_live (σ.pay (b.deposit a env.contract)) b
    (b.withState .funded) rfl hl
  refine ⟨publish env ((σ.pay (b.deposit a env.contract)).store (b.withState .funded) l')
    (.bookingFunded n b.depositAmount), ?_, ?_, h.live.inst, fun e he => ?_⟩
  · simp only [invoke, if_neg hinst, fundBooking, hread, bind, Except.bind, h.created, ne_eq,
      not_true_eq_false, if_false, hrequire, htransfer, pure, Except.pure]
    rw [pay_store]
    exact congrArg (fun σ => Except.ok (publish _ σ _)) hwrite
  · rw [booking?_publish, booking?_withState (σ := σ.pay _) hk h.booking, if_pos rfl]
  · simp only [publish_bookings, Escrow.store, withState_bookingId, hk.bookingId h.booking,
      AList.lookup_insert, Option.some.injEq] at he
    subst he
    exact hl'

/-- Booking `n` becomes funded from `s` to `s'`. -/
def BecomesFunded (s s' : Ledger) (n : UInt64) : Prop :=
  (∀ b, s.escrow.booking? n = some b → b.state ≠ .funded) ∧
    ∃ b, s'.escrow.booking? n = some b ∧ b.state = .funded

/-- The visit of booking `n` is still to come in `s`, and its renter gets the deposit back by
    cancelling at once. -/
def Withdrawable (d : Deployment) (s : Ledger) (n : UInt64) : Prop :=
  ∀ b, s.escrow.booking? n = some b → s.timestamp < b.visitTime ∧
    ∀ hash auths acc, d.contract ∉ auths → b.renter ∈ auths →
      (∀ a, acc a d.contract b.renter b.depositAmount = true) →
      PaysBack d s hash auths acc (.cancelBooking b.renter n) n b .refunded

/-- The action is a call of `fundBooking` that finds what it asks for when the visit time has
    come. -/
def FundsLate (d : Deployment) (s : Ledger) (a : Action) : Prop :=
  ∃ hash auths acc n b, a = .invoke hash auths acc (.fundBooking b.renter n) ∧
    d.contract ∉ auths ∧ Fundable (s.env d hash auths acc) s.escrow n b ∧
    b.visitTime ≤ s.timestamp

/-- Only a committed `fundBooking` makes a booking funded. -/
theorem Effect.becomesFunded {env : Env} {σ σ' : Escrow} {call : Call} (heff : Effect env σ call σ')
    (hk : σ.Keyed) {n : UInt64} (hbefore : ∀ b, σ.booking? n = some b → b.state ≠ .funded)
    {b' : Booking} (hb' : σ'.booking? n = some b') (hfunded : b'.state = .funded) :
    ∃ b, σ.booking? n = some b ∧ call = .fundBooking b.renter n ∧ b' = b.withState .funded := by
  -- a write to another state leaves nothing funded that was not
  have hno : ∀ m x (state : BookingState) l, σ.booking? m = some x → state ≠ .funded →
      (σ.store (x.withState state) l).booking? n ≠ some b' := by
    intro m x state l hx hne hstore
    rw [booking?_withState hk hx] at hstore
    split at hstore
    · cases hstore
      exact hne hfunded
    · exact hbefore b' hstore hfunded
  cases heff with
  | initializeEscrow => exact absurd hfunded (hbefore b' hb')
  | createBooking m renter host amount visitTime a live =>
    rw [booking?_publish, booking?_store] at hb'
    split at hb'
    · cases hb'
      cases hfunded
    · exact absurd hfunded (hbefore b' hb')
  | booking m x live hx =>
    rw [booking?_store_same hk hx] at hb'
    exact absurd hfunded (hbefore b' hb')
  | fundBooking m x a live hx =>
    rw [booking?_publish, booking?_withState (σ := σ.pay _) hk hx] at hb'
    split at hb'
    · rename_i hnm
      subst hnm
      exact ⟨x, hx, rfl, (Option.some.inj hb').symm⟩
    · exact absurd hfunded (hbefore b' hb')
  | cancelUnfunded m x live hx => exact absurd hb' (hno m x .refunded live hx (by decide))
  | cancelFunded m x a live hx => exact absurd hb' (hno m x .refunded live hx (by decide))
  | confirmVisit m x a live hx => exact absurd hb' (hno m x .released live hx (by decide))

/-- A step locks no deposit up exactly if it does not fund a booking late. -/
theorem withdrawable_step_iff {d : Deployment} (s : Ledger) (a : Action)
    (h : Solvent d.contract s.escrow) :
    (∀ s', ledgerStep d s a = some s' → ∀ n, BecomesFunded s s' n → Withdrawable d s' n) ↔
      ¬ FundsLate d s a := by
  constructor
  · rintro hall ⟨hash, auths, acc, n, b, rfl, hself, hfund, hlate⟩
    obtain ⟨σ, hinv, hb', -⟩ := invoke_of_fundable h.keyed hfund
    have hstep : ledgerStep d s (.invoke hash auths acc (.fundBooking b.renter n)) =
        some (s.commit auths (.fundBooking b.renter n) σ) := by
      simp only [ledgerStep, if_neg hself, hinv]
    have hbefore : ∀ x, s.escrow.booking? n = some x → x.state ≠ .funded := by
      intro x hx
      obtain rfl : b = x := Option.some.inj (hfund.booking.symm.trans hx)
      rw [hfund.created]
      decide
    have htime := (hall _ hstep n ⟨hbefore, _, hb', rfl⟩ _ hb').1
    exact absurd htime (UInt64.not_lt.mpr hlate)
  · rintro hnot s' hstep n ⟨hbefore, b', hb', hfunded⟩ x hx
    obtain rfl : b' = x := Option.some.inj (hb'.symm.trans hx)
    rcases ledgerStep_cases h.keyed hstep with ⟨t, q, -, -, -, rfl⟩ | ⟨m, -, rfl⟩ |
      ⟨hash, auths, acc, call, σ, rfl, hself, hinv, heff, rfl⟩ | ⟨-, -, -, -, -, -, -, rfl⟩
    · exact absurd hfunded (hbefore b' hb')
    · exact absurd hfunded (hbefore b' hb')
    · obtain ⟨b, hb, rfl, rfl⟩ := heff.becomesFunded h.keyed hbefore hb' hfunded
      obtain ⟨b₀, hrenter, hfund⟩ := fundable_of_invoke h.keyed hinv
      obtain rfl : b₀ = b := Option.some.inj (hfund.booking.symm.trans hb)
      have htime : s.timestamp < b₀.visitTime := by
        by_contra hlate
        exact hnot ⟨hash, auths, acc, n, b₀, rfl, hself, hfund, UInt64.not_lt.mp hlate⟩
      have hlive : Live s.sequence σ n := by
        obtain ⟨σ', hinv', -, hlive⟩ := invoke_of_fundable h.keyed hfund
        obtain rfl : σ = σ' := Except.ok.inj (hinv.symm.trans hinv')
        exact hlive
      refine ⟨htime, fun hash' auths' acc' hself' hauth hpay => ?_⟩
      exact cancel_pays (heff.solvent h hself) hb' hfunded hash' auths' acc' hlive hself' hauth
        (fun a _ => hpay a) htime
    · exact absurd hfunded (hbefore b' hb')

/-- **When money goes in only while it can come out.** In a run from a fresh deployment every
    booking that becomes funded is still withdrawable at that moment exactly if no step of
    the run funds a booking at or after its visit time. -/
theorem funding_withdrawable_iff {d : Deployment} (s₀ : Ledger) (as : List Action)
    (h₀ : Fresh d s₀) :
    (ledgerMachine d).Along (fun s a => ∀ s', ledgerStep d s a = some s' →
      ∀ n, BecomesFunded s s' n → Withdrawable d s' n) s₀ as ↔
    (ledgerMachine d).Along (fun s a => ¬ FundsLate d s a) s₀ as :=
  (ledgerMachine d).along_congr (I := fun s => Solvent d.contract s.escrow) solvent_step
    withdrawable_step_iff (solvent_of_fresh h₀)

theorem funding_withdrawable_iff_funded :
    (ledgerMachine ⟨"escrow", 300000⟩).Along (fun s a => ∀ s',
        ledgerStep ⟨"escrow", 300000⟩ s a = some s' →
        ∀ n, BecomesFunded s s' n → Withdrawable ⟨"escrow", 300000⟩ s' n)
      (freshLedger ⟨"escrow", 300000⟩ 1000 7 500000 fun _ _ => 10000000) fundedRun := by
  refine (funding_withdrawable_iff _ fundedRun (fresh_freshLedger _ _ _ _ _)).mpr
    ⟨?_, fun s₁ hs₁ => ⟨?_, fun s₂ hs₂ => ⟨?_, fun _ _ => trivial⟩⟩⟩
  · rintro ⟨hash, auths, acc, n, b, h, -⟩
    cases h
  · rintro ⟨hash, auths, acc, n, b, h, -⟩
    cases h
  · cases hs₁
    cases hs₂
    rintro ⟨hash, auths, acc, n, b, h, -, hfund, hlate⟩
    simp only [Action.invoke.injEq, Call.fundBooking.injEq] at h
    obtain ⟨-, -, -, -, rfl⟩ := h
    have hb := hfund.booking
    cases hb
    exact absurd hlate (by decide)

/-- A run that creates booking 1 for a visit at 2000 and funds it at 2000. -/
def fundedLateRun : List Action :=
  [.invoke "t0" ["admin"] (fun _ _ _ _ => true) (.initializeEscrow "admin" "XLM"),
   .invoke "t1" ["renter"] (fun _ _ _ _ => true) (.createBooking 1 "renter" "host" 1000000 2000),
   .close 2000 9]

/-- The deposit goes in at the visit time, and the renter's cancellation is refused. -/
theorem funded_late_refused :
    ∃ s s' b, (ledgerMachine ⟨"escrow", 300000⟩).exec
        (freshLedger ⟨"escrow", 300000⟩ 1000 7 500000 fun _ _ => 10000000) fundedLateRun = some s ∧
      ledgerStep ⟨"escrow", 300000⟩ s
        (.invoke "t2" ["renter"] (fun _ _ _ _ => true) (.fundBooking "renter" 1)) = some s' ∧
      BecomesFunded s s' 1 ∧ s'.escrow.booking? 1 = some b ∧ ¬ s'.timestamp < b.visitTime ∧
      Refused ⟨"escrow", 300000⟩ s' "t3" ["renter"] (fun _ _ _ _ => true)
        (.cancelBooking "renter" 1) ∧
      ¬ Withdrawable ⟨"escrow", 300000⟩ s' 1 := by
  refine ⟨_, _, _, rfl, rfl, ⟨?_, _, rfl, rfl⟩, rfl, by decide, ⟨rfl, rfl⟩, fun h => ?_⟩
  · intro b hb
    cases hb
    decide
  · exact absurd (h _ rfl).1 (by decide)

end PovDeposit.Contract
