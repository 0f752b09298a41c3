/-
  Payment rows and the booking's status.

  `dues` are the kinds of payment that a booking of a given status has behind it. `Paid` is
  the invariant: the payments of a booking are its dues, each over its deposit, no two
  payments share a hash, and an open transaction that has inserted a hash is alone with it.
  A commit adds the payment of its kind together with the status; nothing else touches the
  payments. `Paid.committed` and `Paid.quiet` are the step lemmas.
-/
import PovDeposit.Api.Lifecycle

namespace PovDeposit.Api

open PovDeposit.Lib

def dues : BookingStatus → List TransactionKind
  | .funded | .checkedIn | .completed => [.fund]
  | .refunded => [.fund, .refund]
  | _ => []

def paymentsOf (db : Db) (id : String) : List PaymentTransaction :=
  db.payments.filter fun t => t.bookingId = id

/-- What one payment more is to each booking. -/
theorem paymentsOf_of_concat {db db' : Db} {t : PaymentTransaction}
    (h : db'.payments = db.payments ++ [t]) (id : String) :
    paymentsOf db' id = paymentsOf db id ++ if t.bookingId = id then [t] else [] := by
  unfold paymentsOf
  rw [h, List.filter_append]
  by_cases hid : t.bookingId = id <;> simp [hid]

/-- The payments are those of the given kinds, each over `amount`. -/
def Over (amount : Int) (kinds : List TransactionKind) (ts : List PaymentTransaction) : Prop :=
  ts.map (fun t => (t.kind, t.amount)) = kinds.map fun k => (k, amount)

theorem Over.exists_kind {amount : Int} {kinds : List TransactionKind} {ts : List PaymentTransaction}
    (h : Over amount kinds ts) {kind : TransactionKind} (hkind : kind ∈ kinds) :
    ∃ t ∈ ts, t.kind = kind := by
  have hmem : (kind, amount) ∈ ts.map fun t => (t.kind, t.amount) := by
    rw [h]
    exact List.mem_map_of_mem hkind
  obtain ⟨t, ht, hpair⟩ := List.mem_map.mp hmem
  exact ⟨t, ht, (Prod.mk.inj hpair).1⟩

theorem Over.kind_mem {amount : Int} {kinds : List TransactionKind} {ts : List PaymentTransaction}
    (h : Over amount kinds ts) {t : PaymentTransaction} (ht : t ∈ ts) : t.kind ∈ kinds := by
  have hmem : (t.kind, t.amount) ∈ kinds.map fun k => (k, amount) := by
    rw [← h]
    exact List.mem_map_of_mem ht
  obtain ⟨k, hk, hpair⟩ := List.mem_map.mp hmem
  exact (Prod.mk.inj hpair).1 ▸ hk

theorem Over.amount_eq {amount : Int} {kinds : List TransactionKind} {ts : List PaymentTransaction}
    (h : Over amount kinds ts) {t : PaymentTransaction} (ht : t ∈ ts) : t.amount = amount := by
  have hmem : (t.kind, t.amount) ∈ kinds.map fun k => (k, amount) := by
    rw [← h]
    exact List.mem_map_of_mem ht
  obtain ⟨k, -, hpair⟩ := List.mem_map.mp hmem
  exact (Prod.mk.inj hpair).2.symm

namespace Workflow

/-- The booking a call has read, while it has not written everything. -/
def Stage.snapshot : Stage → Option Booking
  | .checked b | .updated b | .paid b | .logged b => some b
  | _ => none

theorem enter_snapshot {R : Runtime} {c : Call} : (c.enter R).stage.snapshot = none := by
  rcases enter_cases R c with ⟨_, -, h⟩ | ⟨-, _, h⟩ <;> rw [h] <;> rfl

theorem dues_target (c : Call) :
    dues c.op.target = dues c.op.source ++ (c.op.payment.map Payment.kind).toList := by
  cases c <;> rfl

theorem holdsHash_iff {p : Process} {hash : String} :
    p.holdsHash hash = true ↔
      p.op.payment.isSome ∧ p.op.hash = hash ∧ p.stage.hasPaid = true := by
  simp [Process.holdsHash, and_assoc]

theorem hashTaken_eq_false {s : State} {hash : String} :
    s.hashTaken hash = false ↔ ∀ i p, s.call? i = some p → p.holdsHash hash = false :=
  any_calls_eq_false

/-! ## The invariant -/

structure Paid (s : State) : Prop where
  coherent : Coherent s
  snapshot : ∀ i p b, s.call? i = some p → p.stage.snapshot = some b →
    ∃ row, s.db.bookings.lookup p.op.id = some row ∧ b.depositAmount = row.depositAmount
  dues : ∀ id row, s.db.bookings.lookup id = some row →
    Over row.depositAmount (dues row.status) (paymentsOf s.db id)
  known : ∀ t ∈ s.db.payments, ∃ row, s.db.bookings.lookup t.bookingId = some row
  hashes : (s.db.payments.map PaymentTransaction.hash).Nodup
  pending : ∀ i p hash, s.call? i = some p → p.holdsHash hash = true →
    ∀ t ∈ s.db.payments, t.hash ≠ hash
  alone : ∀ i j p q hash, s.call? i = some p → s.call? j = some q → p.holdsHash hash = true →
    q.holdsHash hash = true → i = j

theorem paid_of_fresh {s : State} (h : Fresh s) : Paid s := by
  have hcall : ∀ i p, s.call? i ≠ some p := by
    intro i p hp
    rw [State.call?, h.calls] at hp
    cases hp
  refine ⟨coherent_of_fresh h, fun i p _ hp => absurd hp (hcall i p), ?_, ?_, ?_,
    fun i p _ hp => absurd hp (hcall i p), fun i _ p _ _ hp => absurd hp (hcall i p)⟩
  · intro id row hrow
    rw [h.bookings, AList.lookup_empty] at hrow
    cases hrow
  · simp [h.payments]
  · simp [h.payments]

/-- Without a booking there is no payment. -/
theorem Paid.paymentsOf_eq_nil {s : State} (h : Paid s) {id : String}
    (hnone : s.db.bookings.lookup id = none) : paymentsOf s.db id = [] := by
  refine List.filter_eq_nil_iff.mpr fun t ht => ?_
  obtain ⟨row, hrow⟩ := h.known t ht
  simp only [decide_eq_true_eq]
  rintro rfl
  rw [hnone] at hrow
  cases hrow

/-- Every stored row stays, with its deposit. -/
theorem deposit_step {R : Runtime} {network : String} {s s' : State} {a : Action} (h : Coherent s)
    (hstep : step R network s a = some s') {id : String} {row : BookingRow}
    (hrow : s.db.bookings.lookup id = some row) :
    ∃ row', s'.db.bookings.lookup id = some row' ∧ row'.depositAmount = row.depositAmount := by
  obtain ⟨row', hrow', hterms⟩ := terms_step h hstep hrow
  exact ⟨row', hrow', hterms.depositAmount⟩

section Preservation

variable {R : Runtime} {network : String} {s s' : State} {a : Action} (h : Paid s)
include h

/-- A step that adds no payment and moves no row by a payment. The calls after it are those
    of before, but a call that has now read a booking or inserted a hash did so by this step. -/
theorem Paid.quiet (hstep : step R network s a = some s')
    (hpayments : s'.db.payments = s.db.payments)
    (hdues : ∀ id row, s'.db.bookings.lookup id = some row →
      Over row.depositAmount (Api.dues row.status) (paymentsOf s.db id))
    (hcalls : ∀ j q, s'.call? j = some q →
      (∀ b, q.stage.snapshot = some b → ∃ row, s.db.bookings.lookup q.op.id = some row ∧
        b.depositAmount = row.depositAmount) ∧
      ∀ hash, q.holdsHash hash = true →
        (∃ p, s.call? j = some p ∧ p.holdsHash hash = true) ∨
        s.hashTaken hash = false ∧ a.mover = some j ∧ ∀ t ∈ s.db.payments, t.hash ≠ hash) :
    Paid s' := by
  have hkeep : ∀ id row, s.db.bookings.lookup id = some row →
      ∃ row', s'.db.bookings.lookup id = some row' ∧ row'.depositAmount = row.depositAmount :=
    fun _ _ hrow => deposit_step h.coherent hstep hrow
  refine ⟨coherent_step s a s' h.coherent hstep, ?_, ?_, ?_, ?_, ?_, ?_⟩
  · intro j q b hq hb
    obtain ⟨row, hrow, hamount⟩ := (hcalls j q hq).1 b hb
    obtain ⟨row', hrow', hsame⟩ := hkeep _ row hrow
    exact ⟨row', hrow', hamount.trans hsame.symm⟩
  · intro id row hrow
    rw [paymentsOf, hpayments]
    exact hdues id row hrow
  · intro t ht
    rw [hpayments] at ht
    obtain ⟨row, hrow⟩ := h.known t ht
    obtain ⟨row', hrow', -⟩ := hkeep _ row hrow
    exact ⟨row', hrow'⟩
  · rw [hpayments]
    exact h.hashes
  · intro j q hash hq hhold
    rw [hpayments]
    rcases (hcalls j q hq).2 hash hhold with ⟨p, hp, hph⟩ | ⟨-, -, hnew⟩
    · exact h.pending j p hash hp hph
    · exact hnew
  · intro j k q r hash hq hr hqh hrh
    rcases (hcalls j q hq).2 hash hqh with ⟨p, hp, hph⟩ | ⟨hfree, hj, -⟩ <;>
      rcases (hcalls k r hr).2 hash hrh with ⟨p', hp', hph'⟩ | ⟨hfree', hk, -⟩
    · exact h.alone j k p p' hash hp hp' hph hph'
    · rw [hashTaken_eq_false.mp hfree' j p hp] at hph
      cases hph
    · rw [hashTaken_eq_false.mp hfree k p' hp'] at hph'
      cases hph'
    · exact Option.some.inj (hj.symm.trans hk)

/-- A commit: the payment of its kind comes with the status. -/
theorem Paid.committed {i : Nat} {p : Process} {b : Booking} {kind : TransactionKind}
    {v : Verification} {missing : String} (hp : s.call? i = some p) (hstage : p.stage = .logged b)
    (hpay : p.op.payment = some ⟨kind, some v, missing⟩)
    (hstep : step R network s (.advance i) = some s')
    (hdb : s'.db = p.op.commit b kind v s.db)
    (hcalls : s'.calls = (s.move i { p with stage := .written, durable := true }).calls) :
    Paid s' := by
  have hholds : p.holdsHash p.op.hash = true :=
    holdsHash_iff.mpr ⟨by simp [hpay], rfl, by rw [hstage]; rfl⟩
  obtain ⟨-, row, hrow, hadmits⟩ := h.coherent.committing hp hstage hpay
  have hamount : b.depositAmount = row.depositAmount := by
    obtain ⟨row', hrow', hamount⟩ := h.snapshot i p b hp (by rw [hstage]; rfl)
    obtain rfl : row = row' := by simpa [hrow] using hrow'
    exact hamount
  have hrows : s'.db.bookings = s.db.bookings.insert p.op.id (p.op.apply row) := by
    rw [hdb]
    exact commit_bookings hrow hadmits
  have hpayments : s'.db.payments = s.db.payments ++ [p.op.paymentRow b kind v] := by
    rw [hdb]
    exact commit_payments
  have hbooking : (p.op.paymentRow b kind v).bookingId = p.op.id := rfl
  have hmem : ∀ j q, s'.call? j = some q →
      j = i ∧ q = { p with stage := .written, durable := true } ∨ j ≠ i ∧ s.call? j = some q :=
    fun _ _ hq => call?_of_move hp hcalls hq
  have hkeep : ∀ id x, s.db.bookings.lookup id = some x →
      ∃ x', s'.db.bookings.lookup id = some x' ∧ x'.depositAmount = x.depositAmount :=
    fun _ _ hx => deposit_step h.coherent hstep hx
  refine ⟨coherent_step s _ s' h.coherent hstep, ?_, ?_, ?_, ?_, ?_, ?_⟩
  · intro j q b' hq hb
    rcases hmem j q hq with ⟨rfl, rfl⟩ | ⟨-, hq⟩
    · cases hb
    · obtain ⟨x, hx, hxa⟩ := h.snapshot j q b' hq hb
      obtain ⟨x', hx', hsame⟩ := hkeep _ x hx
      exact ⟨x', hx', hxa.trans hsame.symm⟩
  · intro id x hx
    rw [hrows] at hx
    rw [paymentsOf_of_concat hpayments, hbooking]
    rcases lookup_of_insert hx with ⟨rfl, rfl⟩ | ⟨hid, hold⟩
    · have hdues : Api.dues (p.op.apply row).status = Api.dues row.status ++ [kind] := by
        rw [(admits_iff.mp hadmits).1]
        have := dues_target p.call
        rw [show p.call.op.payment = _ from hpay] at this
        exact this
      have hpast := h.dues _ row hrow
      unfold Over at hpast ⊢
      rw [if_pos rfl, List.map_append, hdues, List.map_append]
      refine congrArg₂ _ hpast ?_
      simp [Operation.paymentRow, Operation.apply, hamount]
    · rw [if_neg (Ne.symm hid), List.append_nil]
      exact h.dues id x hold
  · intro t ht
    rw [hpayments, List.mem_append, List.mem_singleton] at ht
    rcases ht with ht | rfl
    · obtain ⟨x, hx⟩ := h.known t ht
      obtain ⟨x', hx', -⟩ := hkeep _ x hx
      exact ⟨x', hx'⟩
    · obtain ⟨x', hx', -⟩ := hkeep _ row hrow
      exact ⟨x', hx'⟩
  · rw [hpayments, List.map_append, List.nodup_append]
    refine ⟨h.hashes, by simp, ?_⟩
    intro x hx y hy
    obtain ⟨t, ht, rfl⟩ := List.mem_map.mp hx
    rw [List.map_cons, List.map_nil, List.mem_singleton] at hy
    subst hy
    exact h.pending i p _ hp hholds t ht
  · intro j q hash hq hqh t ht
    rcases hmem j q hq with ⟨rfl, rfl⟩ | ⟨hj, hq⟩
    · cases (holdsHash_iff.mp hqh).2.2
    · rw [hpayments, List.mem_append, List.mem_singleton] at ht
      rcases ht with ht | rfl
      · exact h.pending j q hash hq hqh t ht
      · -- two transactions with one hash would be one
        rintro rfl
        exact hj (h.alone j i q p _ hq hp hqh hholds)
  · intro j k q r hash
    have hone : AtMostOne (fun x => x.holdsHash hash = true) s.calls :=
      fun j k q r hq hr => h.alone j k q r hash hq hr
    refine atMostOne_move hp hcalls hone (fun hph => ?_) j k q r
    cases (holdsHash_iff.mp hph).2.2

/-- A call keeps what it has read and inserted, or lets go of it. -/
theorem Paid.kept {j : Nat} {p q : Process} (hp : s.call? j = some p) (hcall : q.call = p.call)
    (hsnapshot : q.stage.snapshot = none ∨ q.stage.snapshot = p.stage.snapshot)
    (hpaid : q.stage.hasPaid = true → p.stage.hasPaid = true) :
    (∀ b, q.stage.snapshot = some b → ∃ row, s.db.bookings.lookup q.op.id = some row ∧
      b.depositAmount = row.depositAmount) ∧
    ∀ hash, q.holdsHash hash = true → (∃ p, s.call? j = some p ∧ p.holdsHash hash = true) ∨
      s.hashTaken hash = false ∧ a.mover = some j ∧ ∀ t ∈ s.db.payments, t.hash ≠ hash := by
  have hop : q.op = p.op := by rw [Process.op, hcall]
  refine ⟨fun b hb => ?_, fun hash hhold => .inl ⟨p, hp, ?_⟩⟩
  · rcases hsnapshot with hnone | hsame
    · rw [hnone] at hb
      cases hb
    · rw [hop]
      exact h.snapshot j p b hp (hsame ▸ hb)
  · obtain ⟨hpay, hhash, hstage⟩ := holdsHash_iff.mp hhold
    exact holdsHash_iff.mpr ⟨hop ▸ hpay, hop ▸ hhash, hpaid hstage⟩

end Preservation

theorem paid_step {R : Runtime} {network : String} (s : State) (a : Action) (s' : State)
    (h : Paid s) (hstep : step R network s a = some s') : Paid s' := by
  cases moves_of_step hstep with
  | rejected => exact h
  | create now uuid input db x hx =>
    refine h.quiet hstep hx.payments ?_ (fun j q hq => h.kept hq rfl (.inr rfl) id)
    intro id row hrow
    rcases hx.lookup_cases hrow with ⟨rfl, rfl⟩ | hold
    · rw [h.paymentsOf_eq_nil hx.fresh, hx.status]
      rfl
    · exact h.dues id row hold
  | call c =>
    refine h.quiet hstep rfl h.dues ?_
    intro j q hq
    rcases call?_of_append rfl hq with hq | rfl
    · exact h.kept hq rfl (.inr rfl) id
    · refine ⟨fun b hb => ?_, fun hash hhold => ?_⟩
      · rw [enter_snapshot] at hb
        cases hb
      · exact absurd (holdsHash_iff.mp hhold).2.2 (by rw [enter_hasPaid]; decide)
  | others =>
    exact ⟨coherent_step s _ _ h.coherent hstep, h.snapshot, h.dues, h.known, h.hashes, h.pending,
      h.alone⟩
  | quiet _ i p stage hmover hp hq =>
    refine h.quiet hstep rfl h.dues ?_
    intro j q hqj
    rcases call?_of_move hp rfl hqj with ⟨rfl, rfl⟩ | ⟨-, hqj⟩
    · cases hq with
      | read b row hstage hrow hb =>
        refine ⟨fun b' hb' => ⟨row, hrow, ?_⟩, fun hash hhold => ?_⟩
        · cases hb'
          rw [hb]
          rfl
        · cases (holdsHash_iff.mp hhold).2.2
      | paid b hstage hpay hfree hnew =>
        refine ⟨fun b' hb' => ?_, fun hash hhold => ?_⟩
        · cases hb'
          exact h.snapshot j p b hp (by rw [hstage]; rfl)
        · obtain rfl : p.op.hash = hash := (holdsHash_iff.mp hhold).2.1
          exact .inr ⟨hfree, hmover, hnew⟩
      | opened b row hstage =>
        exact h.kept hp rfl (.inr (by rw [hstage]; rfl)) (fun hpaid => by cases hpaid)
      | logged b hstage =>
        exact h.kept hp rfl (.inr (by rw [hstage]; rfl)) (fun _ => by rw [hstage]; rfl)
      | returned b hstage => exact h.kept hp rfl (.inl rfl) (fun hpaid => by cases hpaid)
      | threw e hflight hcause => exact h.kept hp rfl (.inl rfl) (fun hpaid => by cases hpaid)
      | stopped hflight hcause => exact h.kept hp rfl (.inl rfl) (fun hpaid => by cases hpaid)
    · exact h.kept hqj rfl (.inr rfl) id
  | update i p b row hp hstage hpay hfree hrow hadmits =>
    refine h.quiet hstep rfl ?_ ?_
    · intro id x hx
      change (s.db.bookings.insert p.op.id (p.op.apply row)).lookup id = some x at hx
      rcases lookup_of_insert hx with ⟨rfl, rfl⟩ | ⟨-, hold⟩
      · -- neither of the two operations adds a payment
        have hdues : Api.dues (p.op.apply row).status = Api.dues row.status := by
          rw [(admits_iff.mp hadmits).1]
          have := dues_target p.call
          rw [show p.call.op.payment = _ from hpay] at this
          exact this.trans (List.append_nil _)
        rw [hdues]
        exact h.dues _ row hrow
      · exact h.dues id x hold
    · intro j q hqj
      rcases call?_of_move hp rfl hqj with ⟨rfl, rfl⟩ | ⟨-, hqj⟩
      · exact h.kept hp rfl (.inr (by rw [hstage]; rfl)) (fun hpaid => by cases hpaid)
      · exact h.kept hqj rfl (.inr rfl) id
  | record i p b hp hstage hpay =>
    refine h.quiet hstep rfl h.dues ?_
    intro j q hqj
    rcases call?_of_move hp rfl hqj with ⟨rfl, rfl⟩ | ⟨-, hqj⟩
    · exact h.kept hp rfl (.inl rfl) (fun hpaid => by cases hpaid)
    · exact h.kept hqj rfl (.inr rfl) id
  | commit i p b kind v missing hp hstage hpay => exact h.committed hp hstage hpay hstep rfl rfl

theorem paid_of_exec {R : Runtime} {network : String} {s₀ s : State} {as : List Action}
    (h₀ : Fresh s₀) (hrun : (machine R network).exec s₀ as = some s) : Paid s :=
  (machine R network).exec_invariant paid_step hrun (paid_of_fresh h₀)

/-- Until it commits, a call of `fund` or `refund` changes no table. -/
theorem uncommitted_step {R : Runtime} {network : String} {s s' : State} {a : Action} {i : Nat}
    {p : Process} (hstep : step R network s a = some s') (hmover : a.mover = some i)
    (hp : s'.call? i = some p) (hnot : p.durable = false) (hpay : p.op.payment.isSome) :
    s'.db = s.db := by
  cases moves_of_step hstep with
  | rejected => rfl
  | create => cases hmover
  | call => rfl
  | others => cases hmover
  | quiet => rfl
  | update j q b row hq =>
    obtain rfl : j = i := Option.some.inj hmover
    rcases call?_of_move hq rfl hp with ⟨-, rfl⟩ | ⟨hne, -⟩
    · cases hnot
    · exact absurd rfl hne
  | record j q b hq hstage hnone =>
    obtain rfl : j = i := Option.some.inj hmover
    rcases call?_of_move hq rfl hp with ⟨-, rfl⟩ | ⟨hne, -⟩
    · simp [Process.op, show q.call.op.payment = none from hnone] at hpay
    · exact absurd rfl hne
  | commit j q b kind v missing hq =>
    obtain rfl : j = i := Option.some.inj hmover
    rcases call?_of_move hq rfl hp with ⟨-, rfl⟩ | ⟨hne, -⟩
    · cases hnot
    · exact absurd rfl hne

/-- A list of payments that is over one kind. -/
theorem over_one {amount : Int} {k : TransactionKind} {ts : List PaymentTransaction}
    (h : Over amount [k] ts) : ∃ t, ts = [t] ∧ t.kind = k ∧ t.amount = amount := by
  obtain ⟨t, rfl, ht⟩ := List.map_eq_singleton_iff.mp h
  simp only [Prod.mk.injEq] at ht
  exact ⟨t, rfl, ht.1, ht.2⟩

theorem over_two {amount : Int} {k k' : TransactionKind} {ts : List PaymentTransaction}
    (h : Over amount [k, k'] ts) : ∃ t t', ts = [t, t'] ∧ t.kind = k ∧ t.amount = amount ∧
      t'.kind = k' ∧ t'.amount = amount := by
  obtain ⟨t, l, rfl, ht, hl⟩ := List.map_eq_cons_iff.mp h
  obtain ⟨t', rfl, hkind, hamount⟩ := over_one hl
  simp only [Prod.mk.injEq] at ht
  exact ⟨t, t', rfl, ht.1, ht.2, hkind, hamount⟩

/-- **Payment rows match the status.** After any run of the workflow: a booking has exactly
    the payments its status stands for, each over its deposit; every payment belongs to a
    booking; no two payments share a hash; and every step taken by a call of `fund` or
    `refund` that has not committed by the end of the run left all tables as they were. -/
theorem payments_match_status (R : Runtime) (network : String) (s₀ s : State)
    (as : List Action) (h₀ : Fresh s₀) (hrun : (machine R network).exec s₀ as = some s) :
    (∀ id row, s.db.bookings.lookup id = some row → row.status ∈ lifecycle ∧
      (row.status = .pendingFunding → paymentsOf s.db id = []) ∧
      (row.status = .funded ∨ row.status = .checkedIn ∨ row.status = .completed →
        ∃ t, paymentsOf s.db id = [t] ∧ t.kind = .fund ∧ t.amount = row.depositAmount) ∧
      (row.status = .refunded →
        ∃ t t', paymentsOf s.db id = [t, t'] ∧ t.kind = .fund ∧ t.amount = row.depositAmount ∧
          t'.kind = .refund ∧ t'.amount = row.depositAmount)) ∧
    (∀ t ∈ s.db.payments, ∃ row, s.db.bookings.lookup t.bookingId = some row) ∧
    (s.db.payments.map PaymentTransaction.hash).Nodup ∧
    (∀ bs a cs t t' i p, (machine R network).exec s₀ bs = some t → step R network t a = some t' →
      (machine R network).exec t' cs = some s → a.mover = some i → s.call? i = some p →
      p.op.payment.isSome → p.durable = false → t'.db = t.db) := by
  have h := paid_of_exec h₀ hrun
  refine ⟨fun id row hrow => ⟨h.coherent.lifecycle id row hrow, ?_, ?_, ?_⟩, h.known, h.hashes, ?_⟩
  · intro hstatus
    have hdues := h.dues id row hrow
    rw [hstatus] at hdues
    exact List.map_eq_nil_iff.mp hdues
  · intro hstatus
    have hdues := h.dues id row hrow
    rcases hstatus with hs | hs | hs <;> rw [hs] at hdues <;> exact over_one hdues
  · intro hstatus
    have hdues := h.dues id row hrow
    rw [hstatus] at hdues
    exact over_two hdues
  · intro bs a cs t t' i p _ hstep hrest hmover hp hpay hnot
    -- the call is in `t'` already: a step of a call needs the call
    obtain ⟨q, hq⟩ : ∃ q, t'.call? i = some q := by
      cases moves_of_step hstep with
      | rejected => cases hmover
      | create => cases hmover
      | call => cases hmover
      | others => cases hmover
      | quiet _ j q stage hj hq =>
        obtain rfl : j = i := Option.some.inj (hj.symm.trans hmover)
        exact ⟨_, call?_move_self hq⟩
      | update j q b row hq =>
        obtain rfl : j = i := Option.some.inj hmover
        exact ⟨_, call?_move_self hq⟩
      | record j q b hq =>
        obtain rfl : j = i := Option.some.inj hmover
        exact ⟨_, call?_move_self hq⟩
      | commit j q b kind v missing hq =>
        obtain rfl : j = i := Option.some.inj hmover
        exact ⟨_, call?_move_self hq⟩
    obtain ⟨p', hp', hcall, hd⟩ := call_exec hrest hq
    obtain rfl : p = p' := by simpa [hp] using hp'
    refine uncommitted_step hstep hmover hq ?_ ?_
    · by_contra hdurable
      rw [hd (by simpa using hdurable)] at hnot
      cases hnot
    · rw [Process.op, ← hcall]
      exact hpay

theorem payments_match_status_checked_in :
    ∃ s t, (machine sampleRuntime "TESTNET").exec listed
        (bookSlot :: fundSlot 0 ++ checkInSlot 1) = some s ∧
      paymentsOf s.db "3b241101-e2bb-4255-8caf-4136c566a962" = [t] ∧ t.kind = .fund ∧
      t.amount = 1000000 := by
  obtain ⟨s, row, hrun, hrow, hstatus, hamount⟩ : ∃ s row,
      (machine sampleRuntime "TESTNET").exec listed
        (bookSlot :: fundSlot 0 ++ checkInSlot 1) = some s ∧
      s.db.bookings.lookup "3b241101-e2bb-4255-8caf-4136c566a962" = some row ∧
      row.status = .checkedIn ∧ row.depositAmount = 1000000 := ⟨_, _, rfl, rfl, rfl, rfl⟩
  have h := payments_match_status sampleRuntime "TESTNET" listed s _ fresh_listed hrun
  obtain ⟨t, ht, hkind, hta⟩ := (h.1 _ row hrow).2.2.1 (.inr (.inl hstatus))
  exact ⟨s, t, hrun, ht, hkind, hta.trans hamount⟩

end Workflow

end PovDeposit.Api
