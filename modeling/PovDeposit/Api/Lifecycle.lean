/-
  The off-chain lifecycle under concurrency.

  `path` lists the statuses a booking passes on its way to a status. `Coherent` is the
  invariant of the workflow: a row's version counts the moves along its path; an open
  transaction holds its row alone, and the row still meets its condition; a call whose
  status change is durable has its target on the row's path, and no other call has made the
  same move. `Coherent.advance` is the step lemma for a move of a row, `Coherent.quiet` for
  the steps that leave the rows alone.
-/
import PovDeposit.Api.Moves

namespace PovDeposit.Api

open PovDeposit.Lib

/-- The statuses passed on the way to a status. -/
def path : BookingStatus → List BookingStatus
  | .pendingFunding => [.pendingFunding]
  | .funded => [.pendingFunding, .funded]
  | .checkedIn => [.pendingFunding, .funded, .checkedIn]
  | .completed => [.pendingFunding, .funded, .checkedIn, .completed]
  | .refunded => [.pendingFunding, .funded, .refunded]
  | status => [status]

/-- The statuses the workflow gives to bookings. -/
def lifecycle : List BookingStatus := [.pendingFunding, .funded, .checkedIn, .completed, .refunded]

theorem path_ends (status : BookingStatus) : ∃ l, path status = l ++ [status] := by
  cases status
  case funded => exact ⟨[.pendingFunding], rfl⟩
  case checkedIn => exact ⟨[.pendingFunding, .funded], rfl⟩
  case completed => exact ⟨[.pendingFunding, .funded, .checkedIn], rfl⟩
  case refunded => exact ⟨[.pendingFunding, .funded], rfl⟩
  all_goals exact ⟨[], rfl⟩

theorem mem_path_self (status : BookingStatus) : status ∈ path status := by
  obtain ⟨l, hl⟩ := path_ends status
  rw [hl]
  exact List.mem_append_right _ List.mem_cons_self

/-- Off the two ends of the lifecycle, its paths are prefixes of these two. -/
theorem path_prefix {status : BookingStatus} (h : status ∈ lifecycle) :
    path status <+: [.pendingFunding, .funded, .checkedIn, .completed] ∨
      path status <+: [.pendingFunding, .funded, .refunded] := by
  simp only [lifecycle, List.mem_cons, List.not_mem_nil, or_false] at h
  rcases h with rfl | rfl | rfl | rfl | rfl <;> decide

/-- A refund and a completion are never on one path. -/
theorem not_refunded_and_completed {status : BookingStatus} (h : .refunded ∈ path status) :
    .completed ∉ path status := by
  cases status <;> revert h <;> decide

/-- Two versions of one booking row: the ids and the terms agree. -/
structure BookingRow.SameTerms (row row' : BookingRow) : Prop where
  id : row'.id = row.id
  onChainBookingId : row'.onChainBookingId = row.onChainBookingId
  renter : row'.renter = row.renter
  host : row'.host = row.host
  depositAmount : row'.depositAmount = row.depositAmount
  visitTime : row'.visitTime = row.visitTime

theorem sameTerms_refl (row : BookingRow) : row.SameTerms row := ⟨rfl, rfl, rfl, rfl, rfl, rfl⟩

theorem BookingRow.SameTerms.trans {r₁ r₂ r₃ : BookingRow} (h : r₁.SameTerms r₂)
    (h' : r₂.SameTerms r₃) : r₁.SameTerms r₃ :=
  ⟨h'.id.trans h.id, h'.onChainBookingId.trans h.onChainBookingId, h'.renter.trans h.renter,
    h'.host.trans h.host, h'.depositAmount.trans h.depositAmount, h'.visitTime.trans h.visitTime⟩

namespace Workflow

theorem sameTerms_apply (op : Operation) (row : BookingRow) : row.SameTerms (op.apply row) :=
  ⟨rfl, rfl, rfl, rfl, rfl, rfl⟩

/-! ## The moves of the four operations -/

theorem path_target (c : Call) : path c.op.target = path c.op.source ++ [c.op.target] := by
  cases c <;> rfl

theorem target_new (c : Call) : c.op.target ∉ path c.op.source := by
  cases c <;> simp [Call.op, fund, checkIn, refund, confirm, path]

theorem target_mem_lifecycle (c : Call) : c.op.target ∈ lifecycle := by
  cases c <;> simp [Call.op, fund, checkIn, refund, confirm, lifecycle]

/-! ## Processes -/

theorem holdsRow_iff {p : Process} {id : String} :
    p.holdsRow id = true ↔ p.op.payment.isSome ∧ p.op.id = id ∧ p.stage.hasUpdated = true := by
  simp [Process.holdsRow, and_assoc]

theorem any_calls_eq_false {s : State} {f : Process → Bool} :
    s.calls.any f = false ↔ ∀ i p, s.call? i = some p → f p = false := by
  rw [List.any_eq_false]
  constructor
  · intro h i p hp
    simpa using h p (List.mem_of_getElem? hp)
  · intro h p hp
    obtain ⟨i, hi⟩ := List.mem_iff_getElem?.mp hp
    simpa using h i p hi

theorem rowLocked_eq_false {s : State} {id : String} :
    s.rowLocked id = false ↔ ∀ i p, s.call? i = some p → p.holdsRow id = false :=
  any_calls_eq_false

/-- The value of `durable` that a stage implies. -/
def Process.expected (p : Process) : Option Bool :=
  match p.stage with
  | .entered | .checked _ | .paid _ | .logged _ => some false
  | .updated _ => some p.op.payment.isNone
  | .written | .returned _ => some true
  | .threw _ | .stopped => none

/-! ## The invariant -/

structure Coherent (s : State) : Prop where
  keyed : ∀ id row, s.db.bookings.lookup id = some row → row.id = id
  lifecycle : ∀ id row, s.db.bookings.lookup id = some row → row.status ∈ lifecycle
  version : ∀ id row, s.db.bookings.lookup id = some row →
    row.version + 1 = (path row.status).length
  admitted : ∀ i p id, s.call? i = some p → p.holdsRow id = true →
    ∃ row, s.db.bookings.lookup id = some row ∧ p.op.admits row = true
  exclusive : ∀ i j p q id, s.call? i = some p → s.call? j = some q →
    p.holdsRow id = true → q.holdsRow id = true → i = j
  moved : ∀ i p, s.call? i = some p → p.durable = true →
    ∃ row, s.db.bookings.lookup p.op.id = some row ∧ p.op.target ∈ path row.status
  once : ∀ i j p q, s.call? i = some p → s.call? j = some q → p.durable = true →
    q.durable = true → p.op.id = q.op.id → p.op.target = q.op.target → i = j
  expected : ∀ i p v, s.call? i = some p → p.expected = some v → p.durable = v

theorem coherent_of_fresh {s : State} (h : Fresh s) : Coherent s := by
  have hrow : ∀ id row, s.db.bookings.lookup id ≠ some row := by
    intro id row hr
    rw [h.bookings, AList.lookup_empty] at hr
    cases hr
  have hcall : ∀ i p, s.call? i ≠ some p := by
    intro i p hp
    rw [State.call?, h.calls] at hp
    cases hp
  exact ⟨fun id row hr => absurd hr (hrow id row), fun id row hr => absurd hr (hrow id row),
    fun id row hr => absurd hr (hrow id row), fun i p _ hp => absurd hp (hcall i p),
    fun i _ p _ _ hp => absurd hp (hcall i p), fun i p hp => absurd hp (hcall i p),
    fun i _ p _ hp => absurd hp (hcall i p), fun i p _ hp => absurd hp (hcall i p)⟩

/-- The calls after one of them became `p'`. -/
theorem atMostOne_move {s s' : State} {i : Nat} {p p' : Process} (hp : s.call? i = some p)
    (hcalls : s'.calls = (s.move i p').calls) {P : Process → Prop} (h : AtMostOne P s.calls)
    (hp' : P p' → ∀ j q, j ≠ i → s.call? j = some q → ¬ P q) : AtMostOne P s'.calls := by
  obtain ⟨hi, -⟩ := List.getElem?_eq_some_iff.mp hp
  rw [hcalls]
  exact h.set hi hp'

section Preservation

variable {s s' : State} (h : Coherent s) {i : Nat} {p : Process} (p' : Process)
include h

/-- One transaction at most has updated a row. -/
theorem Coherent.one_holder (id : String) : AtMostOne (fun q => q.holdsRow id = true) s.calls :=
  fun j k q r hq hr => h.exclusive j k q r id hq hr

/-- One call at most has made a move of a row. -/
theorem Coherent.one_mover (id : String) (status : BookingStatus) :
    AtMostOne (fun q => q.durable = true ∧ q.op.id = id ∧ q.op.target = status) s.calls := by
  rintro j k q r hq hr ⟨hqd, hqid, hqt⟩ ⟨hrd, hrid, hrt⟩
  exact h.once j k q r hq hr hqd hrd (hqid.trans hrid.symm) (hqt.trans hrt.symm)

/-- A step of one call that leaves the rows alone. -/
theorem Coherent.quiet (hp : s.call? i = some p) (hcall : p'.call = p.call)
    (hdurable : p'.durable = p.durable) (hrows : s'.db.bookings = s.db.bookings)
    (hcalls : s'.calls = (s.move i p').calls) (hexpected : ∀ v, p'.expected = some v → p'.durable = v)
    (hholds : ∀ id, p'.holdsRow id = true → p.holdsRow id = true ∨
      s.rowLocked id = false ∧ ∃ row, s.db.bookings.lookup id = some row ∧
        p.op.admits row = true) : Coherent s' := by
  have hop : p'.op = p.op := by rw [Process.op, hcall]
  have hmem : ∀ j q, s'.call? j = some q → j = i ∧ q = p' ∨ j ≠ i ∧ s.call? j = some q :=
    fun _ _ hq => call?_of_move hp hcalls hq
  refine ⟨?_, ?_, ?_, ?_, ?_, ?_, ?_, ?_⟩
  · rw [hrows]
    exact h.keyed
  · rw [hrows]
    exact h.lifecycle
  · rw [hrows]
    exact h.version
  · intro j q id hq hhold
    rw [hrows]
    rcases hmem j q hq with ⟨rfl, rfl⟩ | ⟨-, hold⟩
    · rcases hholds id hhold with hh | ⟨-, row, hrow, hadmits⟩
      · rw [hop]
        exact h.admitted j p id hp hh
      · exact ⟨row, hrow, by rw [hop]; exact hadmits⟩
    · exact h.admitted j q id hold hhold
  · intro j k q r id
    refine atMostOne_move hp hcalls (h.one_holder id) (fun hph j q hne hq hqh => ?_) j k q r
    -- the row was held by this call before, or by none
    rcases hholds id hph with hh | ⟨hfree, -⟩
    · exact hne (h.exclusive j i q p id hq hp hqh hh)
    · rw [rowLocked_eq_false.mp hfree j q hq] at hqh
      cases hqh
  · intro j q hq hd
    rw [hrows]
    rcases hmem j q hq with ⟨rfl, rfl⟩ | ⟨-, hq⟩
    · rw [hop]
      exact h.moved j p hp (hdurable ▸ hd)
    · exact h.moved j q hq hd
  · intro j k q r hq hr hqd hrd hid htarget
    refine atMostOne_move hp hcalls (h.one_mover r.op.id r.op.target) ?_ j k q r hq hr
      ⟨hqd, hid, htarget⟩ ⟨hrd, rfl, rfl⟩
    rw [hop]
    rintro ⟨hd, hpid, hpt⟩ l x hne hx ⟨hxd, hxid, hxt⟩
    exact hne (h.once l i x p hx hp hxd (hdurable ▸ hd) (hxid.trans hpid.symm)
      (hxt.trans hpt.symm))
  · intro j q v hq hv
    rcases hmem j q hq with ⟨rfl, rfl⟩ | ⟨-, hq⟩
    · exact hexpected v hv
    · exact h.expected j q v hq hv

/-- A row moves along its path: the call that wrote it is durable now, and no other
    transaction held the row. -/
theorem Coherent.advance (hp : s.call? i = some p) (hcall : p'.call = p.call)
    (hafter : p'.durable = true)
    (hexpected : ∀ v, p'.expected = some v → v = true)
    (hreleased : ∀ id, p'.holdsRow id = false)
    {row : BookingRow} (hrow : s.db.bookings.lookup p.op.id = some row)
    (hadmits : p.op.admits row = true)
    (halone : ∀ j q, j ≠ i → s.call? j = some q → q.holdsRow p.op.id = false)
    (hrows : s'.db.bookings = s.db.bookings.insert p.op.id (p.op.apply row))
    (hcalls : s'.calls = (s.move i p').calls) : Coherent s' := by
  have hop : p'.op = p.op := by rw [Process.op, hcall]
  have hmem : ∀ j q, s'.call? j = some q → j = i ∧ q = p' ∨ j ≠ i ∧ s.call? j = some q :=
    fun _ _ hq => call?_of_move hp hcalls hq
  have hstatus : row.status = p.op.source := (admits_iff.mp hadmits).1
  have hpath : path (p.op.apply row).status = path row.status ++ [p.op.target] := by
    rw [hstatus]
    exact path_target p.call
  -- every stored row is the new one, or an old one under another id
  have hlookup : ∀ id x, s'.db.bookings.lookup id = some x →
      id = p.op.id ∧ x = p.op.apply row ∨ id ≠ p.op.id ∧ s.db.bookings.lookup id = some x := by
    intro id x hx
    rw [hrows] at hx
    exact lookup_of_insert hx
  have hkeep : ∀ id x, id ≠ p.op.id → s.db.bookings.lookup id = some x →
      s'.db.bookings.lookup id = some x := by
    intro id x hid hx
    rw [hrows, lookup_insert, if_neg hid]
    exact hx
  have hnew : s'.db.bookings.lookup p.op.id = some (p.op.apply row) := by
    rw [hrows, lookup_insert, if_pos rfl]
  refine ⟨?_, ?_, ?_, ?_, ?_, ?_, ?_, ?_⟩
  · intro id x hx
    rcases hlookup id x hx with ⟨rfl, rfl⟩ | ⟨-, hx⟩
    · exact h.keyed _ row hrow
    · exact h.keyed id x hx
  · intro id x hx
    rcases hlookup id x hx with ⟨rfl, rfl⟩ | ⟨-, hx⟩
    · exact target_mem_lifecycle p.call
    · exact h.lifecycle id x hx
  · intro id x hx
    rcases hlookup id x hx with ⟨rfl, rfl⟩ | ⟨-, hx⟩
    · rw [hpath, List.length_append, ← h.version _ row hrow]
      rfl
    · exact h.version id x hx
  · intro j q id hq hhold
    rcases hmem j q hq with ⟨rfl, rfl⟩ | ⟨hj, hq⟩
    · rw [hreleased] at hhold
      cases hhold
    · obtain ⟨x, hx, hxa⟩ := h.admitted j q id hq hhold
      refine ⟨x, hkeep id x ?_ hx, hxa⟩
      rintro rfl
      rw [halone j q hj hq] at hhold
      cases hhold
  · intro j k q r id
    refine atMostOne_move hp hcalls (h.one_holder id) (fun hph => ?_) j k q r
    rw [hreleased] at hph
    cases hph
  · intro j q hq hd
    rcases hmem j q hq with ⟨rfl, rfl⟩ | ⟨-, hq⟩
    · rw [hop]
      exact ⟨_, hnew, mem_path_self _⟩
    · obtain ⟨x, hx, htarget⟩ := h.moved j q hq hd
      by_cases hid : q.op.id = p.op.id
      · rw [hid] at hx ⊢
        obtain rfl : row = x := by simpa [hrow] using hx
        refine ⟨_, hnew, ?_⟩
        rw [hpath]
        exact List.mem_append_left _ htarget
      · exact ⟨x, hkeep _ x hid hx, htarget⟩
  · intro j k q r hq hr hqd hrd hid htarget
    refine atMostOne_move hp hcalls (h.one_mover r.op.id r.op.target) ?_ j k q r hq hr
      ⟨hqd, hid, htarget⟩ ⟨hrd, rfl, rfl⟩
    rw [hop]
    rintro ⟨-, hpid, hpt⟩ l x - hx ⟨hxd, hxid, hxt⟩
    -- a call that made this move before has its target on the old path
    obtain ⟨y, hy, hmem⟩ := h.moved l x hx hxd
    rw [hxid, ← hpid] at hy
    obtain rfl : row = y := Option.some.inj (hrow.symm.trans hy)
    rw [hxt, ← hpt, hstatus] at hmem
    exact target_new p.call hmem
  · intro j q v hq hv
    rcases hmem j q hq with ⟨rfl, rfl⟩ | ⟨-, hq⟩
    · rw [hafter, hexpected v hv]
    · exact h.expected j q v hq hv

/-- A new booking. -/
theorem Coherent.created {R : Runtime} {uuid : String} {input : CreateBooking} {row : BookingRow}
    (hrow : Created R s.db uuid input s'.db row) (hcalls : s'.calls = s.calls) : Coherent s' := by
  have hmem : ∀ j, s'.call? j = s.call? j := fun j => by rw [State.call?, hcalls]; rfl
  have hlookup : ∀ id x, s'.db.bookings.lookup id = some x →
      id = row.id ∧ x = row ∨ s.db.bookings.lookup id = some x := fun _ _ => hrow.lookup_cases
  have hkeep : ∀ id x, s.db.bookings.lookup id = some x → s'.db.bookings.lookup id = some x :=
    fun _ _ => hrow.lookup_keep
  refine ⟨?_, ?_, ?_, ?_, ?_, ?_, ?_, ?_⟩
  · intro id x hx
    rcases hlookup id x hx with ⟨rfl, rfl⟩ | hx
    · rfl
    · exact h.keyed id x hx
  · intro id x hx
    rcases hlookup id x hx with ⟨rfl, rfl⟩ | hx
    · rw [hrow.status]
      exact List.mem_cons_self
    · exact h.lifecycle id x hx
  · intro id x hx
    rcases hlookup id x hx with ⟨rfl, rfl⟩ | hx
    · rw [hrow.status, hrow.version]
      rfl
    · exact h.version id x hx
  · intro j q id hq hhold
    rw [hmem] at hq
    obtain ⟨x, hx, hadmits⟩ := h.admitted j q id hq hhold
    exact ⟨x, hkeep id x hx, hadmits⟩
  · intro j k q r id hq hr
    rw [hmem] at hq hr
    exact h.exclusive j k q r id hq hr
  · intro j q hq hd
    rw [hmem] at hq
    obtain ⟨x, hx, htarget⟩ := h.moved j q hq hd
    exact ⟨x, hkeep _ x hx, htarget⟩
  · intro j k q r hq hr
    rw [hmem] at hq hr
    exact h.once j k q r hq hr
  · intro j q v hq
    rw [hmem] at hq
    exact h.expected j q v hq

/-- A new call. -/
theorem Coherent.called (c : Call) (hdb : s'.db = s.db)
    (hcalls : s'.calls = s.calls ++ [c.enter R]) : Coherent s' := by
  -- the new call has done nothing and holds nothing
  have hmem : ∀ j q, s'.call? j = some q → s.call? j = some q ∨ q = c.enter R :=
    fun _ _ hq => call?_of_append hcalls hq
  have hidle : ∀ id, (c.enter R).holdsRow id = false := by
    intro id
    rw [Process.holdsRow, enter_hasUpdated, Bool.and_false]
  refine ⟨?_, ?_, ?_, ?_, ?_, ?_, ?_, ?_⟩
  · rw [hdb]
    exact h.keyed
  · rw [hdb]
    exact h.lifecycle
  · rw [hdb]
    exact h.version
  · intro j q id hq hhold
    rcases hmem j q hq with hq | rfl
    · rw [hdb]
      exact h.admitted j q id hq hhold
    · rw [hidle] at hhold
      cases hhold
  · intro j k q r id
    rw [State.call?, State.call?, hcalls]
    exact (h.one_holder id).concat (by simp [hidle]) j k q r
  · intro j q hq hd
    rcases hmem j q hq with hq | rfl
    · rw [hdb]
      exact h.moved j q hq hd
    · cases hd
  · intro j k q r hq hr hqd hrd hid htarget
    rw [State.call?, hcalls] at hq hr
    have hnew : (c.enter R).durable = false := rfl
    exact (h.one_mover r.op.id r.op.target).concat (by simp [hnew]) j k q r hq hr ⟨hqd, hid, htarget⟩
      ⟨hrd, rfl, rfl⟩
  · intro j q v hq hv
    rcases hmem j q hq with hq | rfl
    · exact h.expected j q v hq hv
    · rcases enter_cases R c with ⟨_, -, hstage⟩ | ⟨-, _, hstage⟩
      · rw [Process.expected, hstage] at hv
        exact Option.some.inj hv
      · rw [Process.expected, hstage] at hv
        cases hv

end Preservation

/-- A transaction that is about to commit holds its row, which meets its condition. -/
theorem Coherent.committing {s : State} (h : Coherent s) {i : Nat} {p : Process} {b : Booking}
    {payment : Payment} (hp : s.call? i = some p) (hstage : p.stage = .logged b)
    (hpay : p.op.payment = some payment) :
    p.holdsRow p.op.id = true ∧
      ∃ row, s.db.bookings.lookup p.op.id = some row ∧ p.op.admits row = true := by
  have hholds : p.holdsRow p.op.id = true :=
    holdsRow_iff.mpr ⟨by simp [hpay], rfl, by rw [hstage]; rfl⟩
  exact ⟨hholds, h.admitted i p _ hp hholds⟩

/-- A stage that a quiet step leads to agrees with `durable`, and holds the row only if the
    call held it before, or found it free and meeting its condition. -/
theorem Coherent.of_quiet {s s' : State} (h : Coherent s) {a : Action} {i : Nat} {p : Process}
    {stage : Stage} (hp : s.call? i = some p) (hq : Quiet s a i p stage)
    (hrows : s'.db.bookings = s.db.bookings)
    (hcalls : s'.calls = (s.move i { p with stage := stage }).calls) : Coherent s' := by
  have hexp : ∀ v, p.expected = some v → p.durable = v := fun v => h.expected i p v hp
  refine h.quiet { p with stage := stage } hp rfl rfl hrows hcalls ?_ ?_
  · intro v hv
    cases hq with
    | read b row hstage => exact hexp v (by simpa [Process.expected, hstage] using hv)
    | opened b row hstage hpay =>
      have hnone : p.call.op.payment.isNone = false := by simpa using hpay
      obtain rfl : false = v := by simpa [Process.expected, Process.op, hnone] using hv
      exact hexp false (by simp [Process.expected, hstage])
    | paid b hstage hpay =>
      have hnone : p.op.payment.isNone = false := by simpa using hpay
      obtain rfl : false = v := by simpa [Process.expected] using hv
      exact hexp false (by simp [Process.expected, hstage, hnone])
    | logged b hstage => exact hexp v (by simpa [Process.expected, hstage] using hv)
    | returned b hstage => exact hexp v (by simpa [Process.expected, hstage] using hv)
    | threw e => cases hv
    | stopped => cases hv
  · intro id hhold
    obtain ⟨hpay, hid, hup⟩ := holdsRow_iff.mp hhold
    cases hq with
    | opened b row hstage _ hfree hrow hadmits =>
      obtain rfl : p.op.id = id := hid
      exact .inr ⟨hfree, row, hrow, hadmits⟩
    | paid b hstage => exact .inl (holdsRow_iff.mpr ⟨hpay, hid, by rw [hstage]; rfl⟩)
    | logged b hstage => exact .inl (holdsRow_iff.mpr ⟨hpay, hid, by rw [hstage]; rfl⟩)
    | _ => cases hup

/-- Every step keeps the workflow coherent. -/
theorem coherent_step {R : Runtime} {network : String} (s : State) (a : Action) (s' : State)
    (h : Coherent s) (hstep : step R network s a = some s') : Coherent s' := by
  cases moves_of_step hstep with
  | rejected => exact h
  | create now uuid input db row hrow => exact h.created hrow rfl
  | call c => exact h.called c rfl rfl
  | others => exact ⟨h.keyed, h.lifecycle, h.version, h.admitted, h.exclusive, h.moved, h.once,
      h.expected⟩
  | quiet _ i p stage hmover hp hq => exact h.of_quiet hp hq rfl rfl
  | update i p b row hp hstage hpay hfree hrow hadmits =>
    refine h.advance { p with stage := .updated b, durable := true } hp rfl rfl ?_ ?_ hrow
      hadmits ?_ rfl rfl
    · intro v hv
      simpa [Process.expected, hpay] using hv.symm
    · intro id
      simp [Process.holdsRow, hpay]
    · intro j q _ hq
      exact rowLocked_eq_false.mp hfree j q hq
  | record i p b hp hstage hpay =>
    refine h.quiet { p with stage := .written } hp rfl rfl rfl rfl ?_ ?_
    · intro v hv
      obtain rfl : true = v := by simpa [Process.expected] using hv
      exact h.expected i p true hp (by simp [Process.expected, hstage, hpay])
    · intro id hhold
      simp [Process.holdsRow, Stage.hasUpdated] at hhold
  | commit i p b kind v missing hp hstage hpay =>
    obtain ⟨hold, row, hrow, hadmits⟩ := h.committing hp hstage hpay
    refine h.advance { p with stage := .written, durable := true } hp rfl rfl ?_ ?_ hrow
      hadmits ?_ (commit_bookings hrow hadmits) rfl
    · intro v hv
      simpa [Process.expected] using hv.symm
    · intro id
      simp [Process.holdsRow, Stage.hasUpdated]
    · intro j q hj hq
      rw [Bool.eq_false_iff]
      exact fun hqh => hj (h.exclusive j i q p _ hq hp hqh hold)

theorem coherent_of_exec {R : Runtime} {network : String} {s₀ s : State} {as : List Action}
    (h₀ : Fresh s₀) (hrun : (machine R network).exec s₀ as = some s) : Coherent s :=
  (machine R network).exec_invariant coherent_step hrun (coherent_of_fresh h₀)

/-! ## How one row moves -/

section Rows

variable {R : Runtime} {network : String} {s s' : State} {a : Action} {id : String}
  {row row' : BookingRow}

/-- A step leaves a stored row as it is, or is the step in which a call whose condition the
    row meets writes it. -/
theorem row_step (h : Coherent s) (hstep : step R network s a = some s')
    (hrow : s.db.bookings.lookup id = some row) :
    ∃ row', s'.db.bookings.lookup id = some row' ∧ (row' = row ∨
      ∃ i p, a = .advance i ∧ s.call? i = some p ∧ p.op.id = id ∧ p.op.admits row = true ∧
        row' = p.op.apply row) := by
  -- a write of row `x` under the id of call `p`
  have hwrite : ∀ i p x, a = .advance i → s.call? i = some p →
      s.db.bookings.lookup p.op.id = some x → p.op.admits x = true →
      s'.db.bookings = s.db.bookings.insert p.op.id (p.op.apply x) →
      ∃ row', s'.db.bookings.lookup id = some row' ∧ (row' = row ∨
        ∃ i p, a = .advance i ∧ s.call? i = some p ∧ p.op.id = id ∧ p.op.admits row = true ∧
          row' = p.op.apply row) := by
    intro i p x ha hp hx hadmits hrows
    rw [hrows, lookup_insert]
    split
    · rename_i hid
      rw [hid] at hrow
      obtain rfl : row = x := by simpa [hrow] using hx
      exact ⟨_, rfl, .inr ⟨i, p, ha, hp, hid.symm, hadmits, rfl⟩⟩
    · exact ⟨row, hrow, .inl rfl⟩
  cases moves_of_step hstep with
  | rejected => exact ⟨row, hrow, .inl rfl⟩
  | create now uuid input db x hx => exact ⟨row, hx.lookup_keep hrow, .inl rfl⟩
  | call => exact ⟨row, hrow, .inl rfl⟩
  | others => exact ⟨row, hrow, .inl rfl⟩
  | quiet => exact ⟨row, hrow, .inl rfl⟩
  | update i p b x hp hstage hpay hfree hx hadmits => exact hwrite i p x rfl hp hx hadmits rfl
  | record => exact ⟨row, hrow, .inl rfl⟩
  | commit i p b kind v missing hp hstage hpay =>
    obtain ⟨-, x, hx, hadmits⟩ := h.committing hp hstage hpay
    exact hwrite i p x rfl hp hx hadmits (commit_bookings hx hadmits)

/-- A stored row stays and keeps its terms. -/
theorem terms_step (h : Coherent s) (hstep : step R network s a = some s')
    (hrow : s.db.bookings.lookup id = some row) :
    ∃ row', s'.db.bookings.lookup id = some row' ∧ row.SameTerms row' := by
  obtain ⟨row', hrow', hcases⟩ := row_step h hstep hrow
  refine ⟨row', hrow', ?_⟩
  rcases hcases with rfl | ⟨i, p, -, -, -, -, rfl⟩
  · exact sameTerms_refl row'
  · exact sameTerms_apply p.op row

/-- A row appears only by `create`. -/
theorem row_origin (h : Coherent s) (hstep : step R network s a = some s')
    (hnone : s.db.bookings.lookup id = none) (hrow : s'.db.bookings.lookup id = some row) :
    ∃ now uuid input, a = .create now uuid input ∧ Created R s.db uuid input s'.db row := by
  have hsame : s'.db.bookings.lookup id ≠ s.db.bookings.lookup id := by
    rw [hnone, hrow]
    simp
  -- a row that is written was stored
  have hwrite : ∀ i p x, s.call? i = some p → s.db.bookings.lookup p.op.id = some x →
      s'.db.bookings = s.db.bookings.insert p.op.id (p.op.apply x) → False := by
    intro i p x hp hx hrows
    rw [hrows, lookup_insert] at hsame
    split at hsame
    · rename_i hid
      rw [← hid, hnone] at hx
      cases hx
    · exact hsame rfl
  cases moves_of_step hstep with
  | rejected => exact absurd rfl hsame
  | create now uuid input db x hx =>
    rcases hx.lookup_cases hrow with ⟨-, rfl⟩ | hold
    · exact ⟨now, uuid, input, rfl, hx⟩
    · rw [hnone] at hold
      cases hold
  | call => exact absurd rfl hsame
  | others => exact absurd rfl hsame
  | quiet => exact absurd rfl hsame
  | update i p b x hp hstage hpay hfree hx hadmits => exact (hwrite i p x hp hx rfl).elim
  | record => exact absurd rfl hsame
  | commit i p b kind v missing hp hstage hpay =>
    obtain ⟨-, x, hx, hadmits⟩ := h.committing hp hstage hpay
    exact (hwrite i p x hp hx (commit_bookings hx hadmits)).elim

/-- A new row awaits funding. -/
theorem new_row_step (h : Coherent s) (hstep : step R network s a = some s')
    (hnone : s.db.bookings.lookup id = none) (hrow : s'.db.bookings.lookup id = some row) :
    row.status = .pendingFunding := by
  obtain ⟨_, _, _, -, hcreated⟩ := row_origin h hstep hnone hrow
  exact hcreated.status

/-- The rows are under ids as the database spells them. -/
def Spelled (R : Runtime) (db : Db) : Prop :=
  ∀ id row, db.bookings.lookup id = some row → R.Canonical id

theorem spelled_of_fresh (h : Fresh s) : Spelled R s.db := by
  intro id row hrow
  rw [h.bookings, AList.lookup_empty] at hrow
  cases hrow

theorem spelled_step (h : Coherent s) (hspelled : Spelled R s.db)
    (hstep : step R network s a = some s') : Spelled R s'.db := by
  intro id row' hrow'
  cases hrow : s.db.bookings.lookup id with
  | some row => exact hspelled id row hrow
  | none =>
    obtain ⟨now, uuid, input, rfl, hcreated⟩ := row_origin h hstep hrow hrow'
    rw [← (coherent_step s _ s' h hstep).keyed id row' hrow', hcreated.id]
    exact (create_step hstep).1

theorem spelled_of_exec {s₀ : State} {as : List Action} (h₀ : Fresh s₀)
    (hrun : (machine R network).exec s₀ as = some s) : Spelled R s.db :=
  ((machine R network).exec_invariant (I := fun u => Coherent u ∧ Spelled R u.db)
    (fun u a u' hu hstep => ⟨coherent_step u a u' hu.1 hstep, spelled_step hu.1 hu.2 hstep⟩) hrun
    ⟨coherent_of_fresh h₀, spelled_of_fresh h₀⟩).2

end Rows

/-! ## The lifecycle -/

/-- What a call is for. A booking is settled by its refund or by its confirmation. -/
inductive Goal where
  | funding
  | presence
  | settlement
  deriving DecidableEq, Repr

def Call.goal : Call → Goal
  | .fund _ _ _ => .funding
  | .checkIn _ _ _ => .presence
  | .refund _ _ _ _ => .settlement
  | .confirm _ _ _ => .settlement

/-- The caller is the party of the booking that the call is reserved to. -/
def Call.Authorised (row : BookingRow) : Call → Prop
  | .fund _ _ _ => True
  | .checkIn _ actor _ => actor = row.renter
  | .refund _ actor _ _ => actor = row.renter
  | .confirm _ actor _ => actor = row.host

theorem authorised_of_admits {c : Call} {row : BookingRow} (h : c.op.admits row = true) :
    c.Authorised row := by
  obtain ⟨-, hparty⟩ := admits_iff.mp h
  cases c with
  | fund => trivial
  | checkIn id actor proof => exact (hparty _ rfl).symm
  | refund id actor hash v => exact (hparty _ rfl).symm
  | confirm id actor hash => exact (hparty _ rfl).symm

/-- Two calls of one goal that both succeeded have the same target: a booking that was
    refunded was not completed. -/
theorem target_of_goal {c c' : Call} {status : BookingStatus} (hgoal : c.goal = c'.goal)
    (h : c.op.target ∈ path status) (h' : c'.op.target ∈ path status) :
    c.op.target = c'.op.target := by
  cases c <;> cases c' <;> first
    | rfl
    | exact absurd h' (not_refunded_and_completed h)
    | exact absurd h (not_refunded_and_completed h')
    | exact absurd hgoal (by simp [Call.goal])

/-- A call that returned made its move, and no other call made it. -/
theorem Coherent.returned_once {s : State} (h : Coherent s) {i j : Nat} {p q : Process}
    {b c : Booking} (hp : s.call? i = some p) (hq : s.call? j = some q)
    (hpr : p.stage = .returned b) (hqr : q.stage = .returned c) (hid : p.op.id = q.op.id)
    (hgoal : p.call.goal = q.call.goal) : i = j := by
  have hpd : p.durable = true := h.expected i p true hp (by simp [Process.expected, hpr])
  have hqd : q.durable = true := h.expected j q true hq (by simp [Process.expected, hqr])
  obtain ⟨row, hrow, hpt⟩ := h.moved i p hp hpd
  obtain ⟨row', hrow', hqt⟩ := h.moved j q hq hqd
  rw [← hid] at hrow'
  obtain rfl : row = row' := by simpa [hrow] using hrow'
  exact h.once i j p q hp hq hpd hqd hid (target_of_goal hgoal hpt hqt)

def statusOf (id : String) (s : State) : Option BookingStatus :=
  (s.db.bookings.lookup id).map BookingRow.status

/-- The sequence of statuses of a booking along a run. -/
def statuses (R : Runtime) (network : String) (s₀ : State) (as : List Action) (id : String) :
    List BookingStatus :=
  (((machine R network).visited s₀ as).filterMap (statusOf id)).destutter (· ≠ ·)

/-- The statuses a booking had along a run are the path to its last one. -/
theorem statuses_eq_path {R : Runtime} {network : String} {s₀ s : State} {as : List Action}
    (h₀ : Fresh s₀) (hrun : (machine R network).exec s₀ as = some s) (id : String) :
    statuses R network s₀ as id = ((statusOf id s).map path).getD [] := by
  refine ((machine R network).destutter_visited (I := Coherent) (statusOf id) path coherent_step
    ?_ ?_ path_ends hrun (coherent_of_fresh h₀)).1 ?_
  · intro s a s' x h hstep hx
    obtain ⟨row, hrow, rfl⟩ := Option.map_eq_some_iff.mp hx
    obtain ⟨row', hrow', hcases⟩ := row_step h hstep hrow
    refine ⟨row'.status, by rw [statusOf, hrow']; rfl, ?_⟩
    rcases hcases with rfl | ⟨i, p, -, -, -, hadmits, rfl⟩
    · exact .inl rfl
    · rw [(admits_iff.mp hadmits).1]
      exact .inr (path_target p.call)
  · intro s a s' y h hstep hnone hy
    obtain ⟨row, hrow, rfl⟩ := Option.map_eq_some_iff.mp hy
    rw [new_row_step h hstep (Option.map_eq_none_iff.mp hnone) hrow]
    rfl
  · rw [statusOf, h₀.bookings, AList.lookup_empty]
    rfl

/-- **The lifecycle under concurrency.** After any run of the workflow, for every booking id:
    the statuses the booking had are a prefix of one of the two lines of the lifecycle, end in
    its status, and its version counts the moves; at most one call of each goal returned; and
    every further move is made by a call whose condition the booking meets and whose caller is
    the party it is reserved to. -/
theorem lifecycle_under_concurrency (R : Runtime) (network : String) (s₀ s : State)
    (as : List Action) (h₀ : Fresh s₀) (hrun : (machine R network).exec s₀ as = some s)
    (id : String) :
    (statuses R network s₀ as id <+: [.pendingFunding, .funded, .checkedIn, .completed] ∨
      statuses R network s₀ as id <+: [.pendingFunding, .funded, .refunded]) ∧
    (∀ row, s.db.bookings.lookup id = some row →
      (statuses R network s₀ as id).getLast? = some row.status ∧
      row.version + 1 = (statuses R network s₀ as id).length) ∧
    (∀ i j p q b c, s.call? i = some p → s.call? j = some q → p.stage = .returned b →
      q.stage = .returned c → p.op.id = id → q.op.id = id → p.call.goal = q.call.goal → i = j) ∧
    (∀ a t row row', step R network s a = some t → s.db.bookings.lookup id = some row →
      t.db.bookings.lookup id = some row' → row'.status ≠ row.status →
      ∃ i p, a = .advance i ∧ s.call? i = some p ∧ p.op.id = id ∧ row.status = p.op.source ∧
        row'.status = p.op.target ∧ p.call.Authorised row) := by
  have h := coherent_of_exec h₀ hrun
  have hstatuses : ∀ row, s.db.bookings.lookup id = some row →
      statuses R network s₀ as id = path row.status := by
    intro row hrow
    rw [statuses_eq_path h₀ hrun id, statusOf, hrow]
    rfl
  refine ⟨?_, ?_, ?_, ?_⟩
  · cases hrow : s.db.bookings.lookup id with
    | none => simp [statuses_eq_path h₀ hrun id, statusOf, hrow]
    | some row =>
      rw [hstatuses row hrow]
      exact path_prefix (h.lifecycle id row hrow)
  · intro row hrow
    rw [hstatuses row hrow]
    refine ⟨?_, h.version id row hrow⟩
    obtain ⟨l, hl⟩ := path_ends row.status
    rw [hl, List.getLast?_concat]
  · intro i j p q b c hp hq hpr hqr hpid hqid hgoal
    exact h.returned_once hp hq hpr hqr (hpid.trans hqid.symm) hgoal
  · intro a t row row' hstep hrow hrow' hne
    obtain ⟨x, hx, hcases⟩ := row_step h hstep hrow
    obtain rfl : row' = x := by simpa [hrow'] using hx
    rcases hcases with rfl | ⟨i, p, rfl, hp, hid, hadmits, rfl⟩
    · exact absurd rfl hne
    · exact ⟨i, p, rfl, hp, hid, (admits_iff.mp hadmits).1, rfl, authorised_of_admits hadmits⟩

/-! ## A sample -/

/-- The payload of a check-in token for the booking below. -/
def samplePayload : CheckInPayload where
  version := 1
  bookingId := "3b241101-e2bb-4255-8caf-4136c566a962"
  renter := "renter"
  nonce := "000102030405060708090a0b0c0d0e0f101112131415161718191a1b1c1d1e1f"
  expiresAt := some 1893488520000

/-- Its JSON text in base64url. -/
def sampleEncoded : String :=
  "eyJ2ZXJzaW9uIjoxLCJib29raW5nSWQiOiIzYjI0MTEwMS1lMmJiLTQyNTUtOGNhZi00" ++
    "MTM2YzU2NmE5NjIiLCJyZW50ZXIiOiJyZW50ZXIiLCJub25jZSI6IjAwMDEwMjAzMDQwNTA2MDcwODA5MGEw" ++
    "YjBjMGQwZTBmMTAxMTEyMTMxNDE1MTYxNzE4MTkxYTFiMWMxZDFlMWYiLCJleHBpcmVzQXQiOiIyMDMwLTAx" ++
    "LTAxVDA5OjAyOjAwLjAwMFoifQ"

/-- The runtime's answers for one booking whose renter checks in once, with the check-in
    secret `0123456789abcdef0123456789abcdef`. -/
def sampleRuntime : Runtime where
  date s := if s = "2030-01-01T10:00:00.000Z" then some 1893492000000 else none
  date_range s t h := by
    simp only [Option.ite_none_right_eq_some, Option.some.injEq] at h
    omega
  isoDatetime s := s = "2030-01-01T10:00:00.000Z"
  sha256 s :=
    if s = samplePayload.nonce then
      "6c86c6aac5fb24bcf5d9939cb7d7d5645ce39418f449e03b262dd4fa14b4b92b"
    else ""
  sign s := if s = sampleEncoded then "CG2ppWyT0kL4QJGGnZqkwaqDjAlQe_0UGsUV9c7-kE4" else ""
  encode p := if p = samplePayload then sampleEncoded else ""
  decode s := if s = sampleEncoded then .payload samplePayload else .malformed
  isUuid s := (readHyphenated s).isSome
  uuid := readHyphenated
  uuid_idem := readHyphenated_idem
  storable s := s.toList.all fun c => c.toNat ≠ 0
  storable_of s h := by simpa using h

/-- An API with one listed property and one viewing slot. -/
def listed : State where
  db :=
    { wallets := AList.singleton "host" "TESTNET"
      properties := [⟨"property", "loft", "host", true⟩]
      slots := [⟨"slot", "property", 1893492000000⟩]
      bookings := ∅
      history := []
      payments := []
      challenges := ∅ }
  calls := []

theorem fresh_listed : Fresh listed := ⟨rfl, rfl, rfl, rfl, rfl⟩

/-- The renter books the slot. -/
def bookSlot : Action :=
  .create 1892808000000 "3b241101-e2bb-4255-8caf-4136c566a962"
    ⟨"loft", "renter", "host", 1000000, "2030-01-01T10:00:00.000Z",
      "6c86c6aac5fb24bcf5d9939cb7d7d5645ce39418f449e03b262dd4fa14b4b92b"⟩

/-- Call `i` of `fund`, run to its end. -/
def fundSlot (i : Nat) : List Action :=
  [.call (.fund "3b241101-e2bb-4255-8caf-4136c566a962"
      "2514e1475addffb378fdb07e9a1092176c09dbfbd129ebcaacd0099818d2534c"
      (some ⟨7, 1892809000000⟩)),
    .advance i, .advance i, .advance i, .advance i, .advance i, .advance i]

/-- Call `i` of `checkIn`, up to and with its conditional update. -/
def checkInSlot (i : Nat) : List Action :=
  [.call (.checkIn "3b241101-e2bb-4255-8caf-4136c566a962" "renter"
      "6c86c6aac5fb24bcf5d9939cb7d7d5645ce39418f449e03b262dd4fa14b4b92b"),
    .advance i, .advance i]

theorem lifecycle_under_concurrency_checked_in :
    ∃ s row, (machine sampleRuntime "TESTNET").exec listed
        (bookSlot :: fundSlot 0 ++ checkInSlot 1) = some s ∧
      s.db.bookings.lookup "3b241101-e2bb-4255-8caf-4136c566a962" = some row ∧
      row.status = .checkedIn ∧
      row.version + 1 = (statuses sampleRuntime "TESTNET" listed
        (bookSlot :: fundSlot 0 ++ checkInSlot 1) "3b241101-e2bb-4255-8caf-4136c566a962").length := by
  obtain ⟨s, row, hrun, hrow, hstatus⟩ : ∃ s row,
      (machine sampleRuntime "TESTNET").exec listed
        (bookSlot :: fundSlot 0 ++ checkInSlot 1) = some s ∧
      s.db.bookings.lookup "3b241101-e2bb-4255-8caf-4136c566a962" = some row ∧
      row.status = .checkedIn := ⟨_, _, rfl, rfl, rfl⟩
  have h := lifecycle_under_concurrency sampleRuntime "TESTNET" listed s _ fresh_listed hrun
    "3b241101-e2bb-4255-8caf-4136c566a962"
  exact ⟨s, row, hrun, hrow, hstatus, (h.2.1 row hrow).2⟩

end Workflow

end PovDeposit.Api
