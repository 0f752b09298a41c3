/-
  The ledger of each account.

  `locked` adds up all funded deposits; here the sum is split by renter. `netPaid a x` is what
  account `x` has put into token movements of `a` and not got back, `heldFor σ x` what the
  escrow holds for it. `Effect.account` says what one committed call does to an account: its
  balance falls by exactly what the escrow holds more for it.
-/
import PovDeposit.Contract.Settlement
import Mathlib.Algebra.Ring.Int.Defs

namespace PovDeposit.Contract

open PovDeposit.Lib

/-- What the movement `t` takes from account `x` of the asset `a`; what it brings counts
    negative. -/
def Transfer.net (t : Transfer) (a x : Address) : Int :=
  if t.asset = a then
    (if t.sender = x then t.amount else 0) - (if t.receiver = x then t.amount else 0)
  else 0

def netPaid (a x : Address) (ts : List Transfer) : Int := (ts.map fun t => t.net a x).sum

/-- What the escrow owes account `x` for a stored booking. -/
def Booking.dueTo (b : Booking) (x : Address) : Int := if b.renter = x then b.due else 0

/-- What the escrow holds for account `x`: the deposits of its funded bookings. -/
def heldFor (σ : Escrow) (x : Address) : Int :=
  total (fun e : Entry => e.value.dueTo x) σ.bookings

@[simp] theorem netPaid_nil (a x : Address) : netPaid a x [] = 0 := rfl

theorem netPaid_append (a x : Address) (ts us : List Transfer) :
    netPaid a x (ts ++ us) = netPaid a x ts + netPaid a x us := by
  simp [netPaid]

@[simp] theorem netPaid_single (a x : Address) (t : Transfer) : netPaid a x [t] = t.net a x := by
  simp [netPaid]

/-! ## What a write and a token movement change -/

theorem heldFor_store_new {σ : Escrow} {b : Booking} (l : Nat) (x : Address)
    (h : σ.booking? b.bookingId = none) : heldFor (σ.store b l) x = b.dueTo x + heldFor σ x :=
  total_insert_of_lookup_eq_none _ _ (booking?_eq_none.mp h)

theorem heldFor_store {σ : Escrow} {b old : Booking} (l : Nat) (x : Address)
    (h : σ.booking? b.bookingId = some old) :
    heldFor (σ.store b l) x + old.dueTo x = b.dueTo x + heldFor σ x := by
  obtain ⟨l', hl⟩ := booking?_eq_some.mp h
  exact total_insert_of_lookup (fun e : Entry => e.value.dueTo x) ⟨b, l⟩ hl

theorem pay_balances {σ : Escrow} {t : Transfer} (h : t.sender ≠ t.receiver) (a x : Address) :
    (σ.pay t).balances a x = σ.balances a x - t.net a x := by
  unfold Escrow.pay moveBalance Transfer.net
  by_cases ha : t.asset = a
  · subst ha
    by_cases hr : t.receiver = x
    · subst hr
      simp [h, Ne.symm h]
    · by_cases hs : t.sender = x
      · subst hs
        simp [hr, Ne.symm hr]
      · simp [hr, hs, Ne.symm hr, Ne.symm hs]
  · simp [ha, Ne.symm ha]

section Net

variable {b : Booking} {contract a x : Address}

/-- A deposit takes from its renter, and the payout gives it back. -/
theorem net_deposit (hx : x ≠ contract) :
    (b.deposit a contract).net a x = if b.renter = x then b.depositAmount else 0 := by
  have hnet : (b.deposit a contract).net a x = (if b.renter = x then b.depositAmount else 0) -
      if contract = x then b.depositAmount else 0 := if_pos rfl
  rw [hnet, if_neg (Ne.symm hx), Int.sub_zero]

theorem net_payout (hx : x ≠ contract) :
    (b.payout a contract).net a x = -(if b.renter = x then b.depositAmount else 0) := by
  have hnet : (b.payout a contract).net a x = (if contract = x then b.depositAmount else 0) -
      if b.renter = x then b.depositAmount else 0 := if_pos rfl
  rw [hnet, if_neg (Ne.symm hx), Int.zero_sub]

theorem dueTo_funded (h : b.state = .funded) :
    b.dueTo x = if b.renter = x then b.depositAmount else 0 := by
  unfold Booking.dueTo
  rw [due_funded h]

theorem dueTo_of_ne (h : b.state ≠ .funded) : b.dueTo x = 0 := by
  unfold Booking.dueTo
  rw [due_of_ne h, ite_self]

end Net

/-! ## What a committed call does to an account -/

/-- The movement `t` brings the deposit of a stored booking in or pays it out. -/
def Escrow.Moves (σ : Escrow) (contract : Address) (t : Transfer) : Prop :=
  ∃ n b a, σ.asset = some a ∧ σ.booking? n = some b ∧
    (t = b.deposit a contract ∨ t = b.payout a contract)

/-- A committed call as the accounts see it: the movements `ts` it makes are of the accepted
    asset, between the escrow and a renter; they change the balance of every account by what
    they take from it, and that is what the escrow then holds more for it. -/
theorem Effect.account {env : Env} {σ σ' : Escrow} {call : Call} (heff : Effect env σ call σ')
    (h : Solvent env.contract σ) :
    ∃ ts, σ'.transfers = σ.transfers ++ ts ∧
      (∀ t ∈ ts, σ.Moves env.contract t) ∧
      (∀ c x, σ'.balances c x = σ.balances c x - netPaid c x ts) ∧
      (∀ a x, σ.asset = some a → x ≠ env.contract →
        heldFor σ' x = heldFor σ x + netPaid a x ts) := by
  have hk := h.keyed
  -- what the escrow holds for `x` after booking `n` moved to `state`
  have hheld : ∀ n (b : Booking) (τ : Escrow) (state : BookingState) l x, σ.booking? n = some b →
      τ.bookings = σ.bookings →
      heldFor (τ.store (b.withState state) l) x + b.dueTo x =
        (b.withState state).dueTo x + heldFor σ x := by
    intro n b τ state l x hb hτ
    have hold : τ.booking? (b.withState state).bookingId = some b := by
      rw [withState_bookingId, hk.bookingId hb, Escrow.booking?, hτ]
      exact hb
    have hsum := heldFor_store l x hold
    rw [show heldFor τ x = heldFor σ x by rw [heldFor, hτ]; rfl] at hsum
    exact hsum
  -- a call that moves nothing and keeps what is held
  have hstill : ∀ σ₁ : Escrow, σ₁.transfers = σ.transfers → σ₁.balances = σ.balances →
      (∀ a x, σ.asset = some a → heldFor σ₁ x = heldFor σ x) →
      ∃ ts, σ₁.transfers = σ.transfers ++ ts ∧ (∀ t ∈ ts, σ.Moves env.contract t) ∧
        (∀ c x, σ₁.balances c x = σ.balances c x - netPaid c x ts) ∧
        (∀ a x, σ.asset = some a → x ≠ env.contract →
          heldFor σ₁ x = heldFor σ x + netPaid a x ts) := by
    intro σ₁ htransfers hbalances hsame
    refine ⟨[], by rw [htransfers, List.append_nil], by simp, fun c x => ?_, fun a x ha _ => ?_⟩
    · rw [hbalances, netPaid_nil, Int.sub_zero]
    · rw [hsame a x ha, netPaid_nil, Int.add_zero]
  -- a payout, after which the booking is not funded
  have hpayout : ∀ n (b : Booking) (a : Address) (state : BookingState) l (ev : ContractEvent) σ₁,
      σ.booking? n = some b → b.state = .funded → σ.asset = some a → state ≠ .funded →
      σ₁ = publish env ((σ.pay (b.payout a env.contract)).store (b.withState state) l) ev →
      ∃ ts, σ₁.transfers = σ.transfers ++ ts ∧ (∀ t ∈ ts, σ.Moves env.contract t) ∧
        (∀ c x, σ₁.balances c x = σ.balances c x - netPaid c x ts) ∧
        (∀ a x, σ.asset = some a → x ≠ env.contract →
          heldFor σ₁ x = heldFor σ x + netPaid a x ts) := by
    intro n b a state l ev σ₁ hb hstate ha hne hσ₁
    subst hσ₁
    refine ⟨[b.payout a env.contract], rfl, ?_, fun c x => ?_, fun a' x ha' hx => ?_⟩
    · simp only [List.mem_singleton, forall_eq]
      exact ⟨n, b, a, ha, hb, .inr rfl⟩
    · rw [netPaid_single]
      exact pay_balances (t := b.payout a env.contract) (h.not_self n b hb).symm c x
    · obtain rfl : a = a' := Option.some.inj (ha.symm.trans ha')
      have hsum := hheld n b (σ.pay (b.payout a env.contract)) state l x hb rfl
      rw [dueTo_funded hstate, dueTo_of_ne hne] at hsum
      rw [netPaid_single, net_payout hx]
      have hgoal : heldFor ((σ.pay (b.payout a env.contract)).store (b.withState state) l) x =
          heldFor σ x + -(if b.renter = x then b.depositAmount else 0) := by omega
      exact hgoal
  cases heff with
  | initializeEscrow admin a live hnone =>
    refine hstill _ rfl rfl fun a' x ha' => ?_
    rw [hnone] at ha'
    cases ha'
  | createBooking n renter host amount visitTime a live ha hnew =>
    refine hstill _ rfl rfl fun _ x _ => ?_
    have hsum := heldFor_store_new (b := ⟨n, renter, host, amount, visitTime, .created⟩) live x hnew
    rw [dueTo_of_ne (by simp)] at hsum
    exact hsum.trans (Int.zero_add _)
  | booking n b live hb =>
    refine hstill _ rfl rfl fun _ x _ => ?_
    have hsum : heldFor (σ.store b live) x + b.dueTo x = b.dueTo x + heldFor σ x :=
      hheld n b σ b.state live x hb rfl
    omega
  | fundBooking n b a live hb hstate hauth ha =>
    refine ⟨[b.deposit a env.contract], rfl, ?_, fun c x => ?_, fun a' x ha' hx => ?_⟩
    · simp only [List.mem_singleton, forall_eq]
      exact ⟨n, b, a, ha, hb, .inl rfl⟩
    · rw [netPaid_single]
      exact pay_balances (t := b.deposit a env.contract) (h.not_self n b hb) c x
    · obtain rfl : a = a' := Option.some.inj (ha.symm.trans ha')
      have hsum := hheld n b (σ.pay (b.deposit a env.contract)) .funded live x hb rfl
      rw [dueTo_of_ne (by rw [hstate]; decide), dueTo_funded (withState_state _ _)] at hsum
      rw [netPaid_single, net_deposit hx]
      exact (Int.add_zero _).symm.trans (hsum.trans (Int.add_comm _ _))
  | cancelUnfunded n b live hb hstate =>
    refine hstill _ rfl rfl fun _ x _ => ?_
    have hsum := hheld n b σ .refunded live x hb rfl
    rw [dueTo_of_ne (by rw [hstate]; decide), dueTo_of_ne (by simp)] at hsum
    exact (Int.add_zero _).symm.trans (hsum.trans (Int.zero_add _))
  | cancelFunded n b a live hb hstate hauth htime ha =>
    exact hpayout n b a .refunded live _ _ hb hstate ha (by decide) rfl
  | confirmVisit n b a live hb hstate hauth htime ha =>
    exact hpayout n b a .released live _ _ hb hstate ha (by decide) rfl

/-! ## The accounts over whole runs -/

structure Accounted (contract : Address) (σ : Escrow) : Prop where
  solvent : Solvent contract σ
  moves : ∀ t ∈ σ.transfers, σ.Moves contract t
  held : ∀ a x, σ.asset = some a → x ≠ contract → netPaid a x σ.transfers = heldFor σ x

/-- Without an asset nothing is stored. -/
theorem Solvent.heldFor_of_unset {contract : Address} {σ : Escrow} (h : Solvent contract σ)
    (hnone : σ.asset = none) (x : Address) : heldFor σ x = 0 := by
  have hempty : σ.bookings.entries = [] := by
    refine List.eq_nil_iff_forall_not_mem.mpr fun e he => ?_
    have hl : σ.bookings.lookup e.1 = some e.2 := List.mem_dlookup σ.bookings.nodupKeys he
    exact h.booking?_of_unset hnone e.1 e.2.value (booking?_eq_some.mpr ⟨e.2.liveUntil, hl⟩)
  simp [heldFor, total, hempty]

theorem accounted_of_fresh {d : Deployment} {s : Ledger} (h : Fresh d s) :
    Accounted d.contract s.escrow := by
  refine ⟨solvent_of_fresh h, ?_, fun a x ha => ?_⟩
  · simp [h.transfers]
  · rw [h.asset] at ha
    cases ha

theorem Effect.accounted {env : Env} {σ σ' : Escrow} {call : Call} (heff : Effect env σ call σ')
    (h : Accounted env.contract σ) (hself : env.contract ∉ env.auths) :
    Accounted env.contract σ' := by
  have hsolvent := heff.solvent h.solvent hself
  -- a stored booking keeps its terms, so what moved for it still did
  have hkept : ∀ t, σ.Moves env.contract t → σ'.Moves env.contract t := by
    rintro t ⟨n, b, a, ha, hb, ht⟩
    obtain ⟨b', hb', hterms, -⟩ := heff.edge h.solvent.keyed hb
    refine ⟨n, b', a, heff.asset_eq ha, hb', ?_⟩
    unfold Booking.deposit Booking.payout
    rw [hterms.renter, hterms.depositAmount]
    exact ht
  obtain ⟨ts, hts, hmoves, -, hheld⟩ := heff.account h.solvent
  refine ⟨hsolvent, fun t ht => ?_, fun a x ha hx => ?_⟩
  · rw [hts] at ht
    rcases List.mem_append.mp ht with hold | hnew
    · exact hkept t (h.moves t hold)
    · exact hkept t (hmoves t hnew)
  · rw [hts, netPaid_append]
    cases hasset : σ.asset with
    | some a' =>
      obtain rfl : a = a' := Option.some.inj (ha.symm.trans (heff.asset_eq hasset))
      rw [h.held a x hasset hx, hheld a x hasset hx]
    | none =>
      -- nothing moves before there is an asset
      have hmoved : ∀ t, ¬ σ.Moves env.contract t := by
        rintro t ⟨n, b, a', ha', -⟩
        rw [hasset] at ha'
        cases ha'
      have hpast : σ.transfers = [] :=
        List.eq_nil_iff_forall_not_mem.mpr fun t ht => hmoved t (h.moves t ht)
      have hnow : ts = [] :=
        List.eq_nil_iff_forall_not_mem.mpr fun t ht => hmoved t (hmoves t ht)
      rw [hpast, hnow, netPaid_nil]
      cases heff with
      | initializeEscrow admin a' live => exact (h.solvent.heldFor_of_unset hasset x).symm
      | createBooking _ _ _ _ _ a' _ ha' => rw [hasset] at ha'; cases ha'
      | booking n b live hb => exact absurd hb (h.solvent.booking?_of_unset hasset n b)
      | fundBooking n b a' live hb => exact absurd hb (h.solvent.booking?_of_unset hasset n b)
      | cancelUnfunded n b live hb => exact absurd hb (h.solvent.booking?_of_unset hasset n b)
      | cancelFunded n b a' live hb => exact absurd hb (h.solvent.booking?_of_unset hasset n b)
      | confirmVisit n b a' live hb => exact absurd hb (h.solvent.booking?_of_unset hasset n b)

variable {d : Deployment}

theorem accounted_step (s : Ledger) (a : Action) (s' : Ledger) (h : Accounted d.contract s.escrow)
    (hstep : ledgerStep d s a = some s') : Accounted d.contract s'.escrow := by
  have hsolvent := solvent_step s a s' h.solvent hstep
  rcases ledgerStep_cases h.solvent.keyed hstep with ⟨t, q, -, -, -, rfl⟩ | ⟨m, -, rfl⟩ |
    ⟨hash, auths, acc, call, σ, -, hself, -, heff, rfl⟩ | ⟨-, -, -, -, -, -, -, rfl⟩
  · exact h
  · exact ⟨hsolvent, h.moves, h.held⟩
  · exact heff.accounted h hself
  · exact h

theorem accounted_of_exec {s₀ s : Ledger} {as : List Action} (h₀ : Fresh d s₀)
    (hrun : (ledgerMachine d).exec s₀ as = some s) : Accounted d.contract s.escrow :=
  (ledgerMachine d).exec_invariant (I := fun s => Accounted d.contract s.escrow) accounted_step hrun
    (accounted_of_fresh h₀)

/-- Not token activity of others. -/
def Action.IsOwn : Action → Prop
  | .tokens _ => False
  | .close _ _ => True
  | .invoke _ _ _ _ => True

/-- What account `x` has of the asset `c`, with what the escrow, which takes `a`, holds for it. -/
def wealth (s : Ledger) (a c x : Address) : Int :=
  s.escrow.balances c x + if c = a then heldFor s.escrow x else 0

theorem wealth_step {s s' : Ledger} {act : Action} (h : Solvent d.contract s.escrow) {a x : Address}
    (ha : s.escrow.asset = some a) (hx : x ≠ d.contract) (hown : act.IsOwn)
    (hstep : ledgerStep d s act = some s') (c : Address) : wealth s' a c x = wealth s a c x := by
  rcases ledgerStep_cases h.keyed hstep with ⟨t, q, -, -, -, rfl⟩ | ⟨m, rfl, -⟩ |
    ⟨hash, auths, acc, call, σ, -, hself, -, heff, rfl⟩ | ⟨-, -, -, -, -, -, -, rfl⟩
  · rfl
  · exact hown.elim
  · obtain ⟨ts, -, hmoves, hbalance, hheld⟩ := heff.account h
    unfold wealth
    rw [commit_escrow, hbalance c x, hheld a x ha hx]
    by_cases hc : c = a
    · subst hc
      rw [if_pos rfl, if_pos rfl]
      omega
    · -- only the accepted asset moves
      have hnone : netPaid c x ts = 0 := by
        refine List.sum_eq_zero fun v hv => ?_
        obtain ⟨t, ht, rfl⟩ := List.mem_map.mp hv
        obtain ⟨n, b, a', ha', -, hends⟩ := hmoves t ht
        obtain rfl : a = a' := Option.some.inj (ha.symm.trans ha')
        rcases hends with rfl | rfl <;> exact if_neg (Ne.symm hc)
      rw [if_neg hc, if_neg hc, hnone]
      omega
  · rfl

/-- **Every account's ledger.** After any run, for the accepted asset `a`: every token movement
    of the escrow brings in or pays out the deposit of a stored booking, so an account that is
    the renter of none has no part in any; what an account has paid in and not got back is what
    its funded bookings hold; and what a further run without token activity of others leaves
    unchanged is, in every asset, what the account has together with what is held for it. -/
theorem accounts_balance (s₀ s : Ledger) (as : List Action) (h₀ : Fresh d s₀)
    (hrun : (ledgerMachine d).exec s₀ as = some s) (a : Address)
    (ha : s.escrow.asset = some a) :
    (∀ t ∈ s.escrow.transfers, ∃ n b, s.escrow.booking? n = some b ∧
      (t = b.deposit a d.contract ∨ t = b.payout a d.contract)) ∧
    (∀ x, x ≠ d.contract → netPaid a x s.escrow.transfers = heldFor s.escrow x) ∧
    (∀ x, x ≠ d.contract → 0 ≤ heldFor s.escrow x) ∧
    (∀ bs s', (∀ b ∈ bs, b.IsOwn) → (ledgerMachine d).exec s bs = some s' →
      ∀ x c, x ≠ d.contract → wealth s' a c x = wealth s a c x) := by
  have h := accounted_of_exec h₀ hrun
  refine ⟨fun t ht => ?_, fun x hx => h.held a x ha hx, fun x hx => ?_, ?_⟩
  · obtain ⟨n, b, a', ha', hb, hends⟩ := h.moves t ht
    obtain rfl : a = a' := Option.some.inj (ha.symm.trans ha')
    exact ⟨n, b, hb, hends⟩
  · refine List.sum_nonneg fun v hv => ?_
    obtain ⟨e, he, rfl⟩ := List.mem_map.mp hv
    have hl : s.escrow.bookings.lookup e.1 = some e.2 :=
      List.mem_dlookup s.escrow.bookings.nodupKeys he
    have hpos := h.solvent.nonneg e.1 e.2.value (booking?_eq_some.mpr ⟨e.2.liveUntil, hl⟩)
    show 0 ≤ e.2.value.dueTo x
    unfold Booking.dueTo Booking.due
    split
    · split <;> omega
    · omega
  · intro bs s' hown hrun' x c hx
    have hkeep := (ledgerMachine d).exec_invariant_along
      (I := fun t => Solvent d.contract t.escrow ∧ t.escrow.asset = some a ∧
        wealth t a c x = wealth s a c x)
      (P := fun _ b => b.IsOwn) (fun t b t' ht hb hstep =>
        ⟨solvent_step t b t' ht.1 hstep, asset_step t b t' ht.1 hstep ht.2.1,
          (wealth_step ht.1 ht.2.1 hx hb hstep c).trans ht.2.2⟩)
      hrun' ((ledgerMachine d).along_of_forall s hown) ⟨h.solvent, ha, rfl⟩
    exact hkeep.2.2

theorem accounts_balance_funded :
    ∃ s, (ledgerMachine ⟨"escrow", 300000⟩).exec
        (freshLedger ⟨"escrow", 300000⟩ 1000 7 500000 fun _ _ => 10000000) fundedRun = some s ∧
      heldFor s.escrow "renter" = 1000000 ∧
      netPaid "XLM" "renter" s.escrow.transfers = heldFor s.escrow "renter" ∧
      netPaid "XLM" "host" s.escrow.transfers = 0 := by
  obtain ⟨s, hrun, hheld, hnone, hasset⟩ : ∃ s, (ledgerMachine ⟨"escrow", 300000⟩).exec
      (freshLedger ⟨"escrow", 300000⟩ 1000 7 500000 fun _ _ => 10000000) fundedRun = some s ∧
      heldFor s.escrow "renter" = 1000000 ∧ heldFor s.escrow "host" = 0 ∧
      s.escrow.asset = some "XLM" := ⟨_, rfl, rfl, rfl, rfl⟩
  have h := accounts_balance _ s fundedRun (fresh_freshLedger _ _ _ _ _) hrun "XLM" hasset
  exact ⟨s, hrun, hheld, h.2.1 "renter" (by decide), (h.2.1 "host" (by decide)).trans hnone⟩

end PovDeposit.Contract
