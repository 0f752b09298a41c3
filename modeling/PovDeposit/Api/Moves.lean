/-
  What a step of the workflow does.

  `Moves` lists the outcomes of a step with everything that made it possible: a new booking,
  a new call, the conditional update of `checkIn` and `confirm`, their history row, the
  commit of `fund` and `refund`, and the steps that change no table (`Quiet`).
  `moves_of_step` is the one place where `create` and `advance` are unfolded.
-/
import PovDeposit.Api.Workflow
import PovDeposit.Lib.Outcome
import PovDeposit.Lib.KeyedSum
import PovDeposit.Lib.Slots

namespace PovDeposit.Api

open PovDeposit.Lib PovDeposit.Lib.Outcome

/-! ## Inserts and updates -/

section Db

variable {db db' : Db}

theorem mem_rows {row : BookingRow} :
    row ∈ db.rows ↔ ∃ id, db.bookings.lookup id = some row := by
  unfold Db.rows
  rw [List.mem_map]
  constructor
  · rintro ⟨e, he, rfl⟩
    exact ⟨e.1, List.mem_dlookup db.bookings.nodupKeys he⟩
  · rintro ⟨id, h⟩
    exact ⟨⟨id, row⟩, List.of_mem_dlookup h, rfl⟩

theorem insertBooking_eq_ok {row : BookingRow} :
    db.insertBooking row = .ok db' ↔ db.bookings.lookup row.id = none ∧
      (∀ r ∈ db.rows, r.onChainBookingId ≠ row.onChainBookingId ∧ r.slotId ≠ row.slotId) ∧
      db' = { db with bookings := db.bookings.insert row.id row } := by
  unfold Db.insertBooking
  rw [guard_eq_ok]
  simp only [not_or, List.any_eq_true, Bool.or_eq_true, decide_eq_true_eq, not_exists, not_and,
    Option.not_isSome_iff_eq_none, Except.ok.injEq, and_assoc, eq_comm (a := db')]

theorem insertPayment_eq_ok {payment : PaymentTransaction} :
    db.insertPayment payment = .ok db' ↔ (∀ q ∈ db.payments, q.hash ≠ payment.hash) ∧
      db' = { db with payments := db.payments ++ [payment] } := by
  unfold Db.insertPayment
  rw [guard_eq_ok]
  simp only [List.any_eq_true, decide_eq_true_eq, not_exists, not_and, Except.ok.injEq,
    eq_comm (a := db')]

theorem names_iff {R : Runtime} {id : String} {row : BookingRow} (hid : R.Canonical id) :
    db.Names R id row ↔ db.bookings.lookup id = some row := by
  unfold Db.Names
  rw [show R.uuid id = some id from hid]
  simp only [Option.some.injEq, exists_eq_left']

/-- `updateMany` under a primary key writes one row or none. -/
theorem updateMany_cases (db : Db) (id : String) (cond : BookingRow → Bool)
    (data : BookingRow → BookingRow) :
    (∃ row, db.bookings.lookup id = some row ∧ cond row = true ∧
      db.updateMany id cond data =
        (1, { db with bookings := db.bookings.insert id (data row) })) ∨
    db.updateMany id cond data = (0, db) := by
  unfold Db.updateMany
  split
  · exact .inr rfl
  · rename_i row hrow
    by_cases h : cond row
    · exact .inl ⟨row, hrow, h, if_pos h⟩
    · exact .inr (if_neg h)

end Db

namespace Workflow

open PovDeposit.Contract (Address)

theorem findUnique_eq_ok {db : Db} {id : String} {b : Booking} :
    findUnique db id = .ok b ↔ ∃ row, db.bookings.lookup id = some row ∧ load db row = b := by
  unfold findUnique
  split
  · rename_i row h
    simp [h]
  · rename_i h
    simp [h]

theorem get_eq_ok {R : Runtime} {db : Db} {id : String} {b : Booking} :
    get R db id = .ok b ↔ ∃ row, db.Names R id row ∧ load db row = b := by
  unfold get Db.Names
  simp only [bind_eq_ok, readUuid_eq_ok, findUnique_eq_ok]
  exact ⟨fun ⟨key, hid, row, hrow, hb⟩ => ⟨row, ⟨key, hid, hrow⟩, hb⟩,
    fun ⟨row, ⟨key, hid, hrow⟩, hb⟩ => ⟨key, hid, row, hrow, hb⟩⟩

theorem readAndCheck_eq_ok {op : Operation} {db : Db} {b : Booking} :
    op.readAndCheck db = .ok b ↔
      ∃ row, db.bookings.lookup op.id = some row ∧ b = load db row ∧ op.check b = .ok () := by
  unfold Operation.readAndCheck
  simp only [bind_eq_ok, findUnique_eq_ok, pure_eq_ok]
  constructor
  · rintro ⟨x, ⟨row, hrow, rfl⟩, u, hcheck, rfl⟩
    exact ⟨row, hrow, rfl, hcheck⟩
  · rintro ⟨row, hrow, rfl, hcheck⟩
    exact ⟨_, ⟨row, hrow, rfl⟩, (), hcheck, rfl⟩

/-- A call that passed its checks: the state it asks for, the party, and the metadata of the
    payment it is to write. -/
theorem check_eq_ok {op : Operation} {b : Booking} (h : op.check b = .ok ()) :
    b.state = op.source ∧ (∀ p ∈ op.party, p.role.of b.renter b.host = p.actor) ∧
      isHash op.hash = true ∧
      (∀ pay ∈ op.payment, ∃ v, pay = ⟨pay.kind, some v, pay.missing⟩) := by
  unfold Operation.check at h
  obtain ⟨hstate, h⟩ := guard_eq_ok.mp h
  split at h
  · cases h
  · rename_i hparty
    obtain ⟨hhash, h⟩ := guard_eq_ok.mp h
    split at h
    · cases h
    · rename_i hpay
      refine ⟨not_not.mp hstate, fun p hp => ?_, by simpa using hhash, fun pay hp => ?_⟩
      · simpa using Option.filter_eq_none_iff.mp hparty p hp
      · obtain ⟨kind, v, missing⟩ := pay
        have hsome := Option.filter_eq_none_iff.mp hpay _ hp
        cases v with
        | none => simp at hsome
        | some v => exact ⟨v, rfl⟩

theorem admits_iff {op : Operation} {row : BookingRow} :
    op.admits row = true ↔ row.status = op.source ∧
      ∀ p ∈ op.party, p.role.of row.renter row.host = p.actor := by
  unfold Operation.admits
  rw [Bool.and_eq_true, decide_eq_true_eq, Option.all_eq_true]
  simp only [decide_eq_true_eq, Option.mem_def]

/-! ## What a commit writes -/

section Commit

variable {op : Operation} {b : Booking} {kind : TransactionKind} {v : Verification} {db : Db}

theorem commit_bookings {row : BookingRow} (hrow : db.bookings.lookup op.id = some row)
    (hadmits : op.admits row = true) :
    (op.commit b kind v db).bookings = db.bookings.insert op.id (op.apply row) := by
  unfold Operation.commit Db.updateMany Db.insertHistory
  rw [hrow]
  simp only [hadmits, if_true]

theorem commit_payments :
    (op.commit b kind v db).payments = db.payments ++ [op.paymentRow b kind v] := by
  unfold Operation.commit Db.insertHistory
  rcases updateMany_cases db op.id op.admits op.apply with ⟨_, -, -, h⟩ | h <;> rw [h]

theorem commit_history :
    (op.commit b kind v db).history = db.history ++ [op.historyRow b] := by
  unfold Operation.commit Db.insertHistory
  rcases updateMany_cases db op.id op.admits op.apply with ⟨_, -, -, h⟩ | h <;> rw [h]

theorem commit_challenges : (op.commit b kind v db).challenges = db.challenges := by
  unfold Operation.commit Db.insertHistory
  rcases updateMany_cases db op.id op.admits op.apply with ⟨_, -, -, h⟩ | h <;> rw [h]

end Commit

/-! ## A new booking -/

/-- What `create` stores: a row that awaits funding with the terms of the request, under ids
    that were not in use, and its first history row. -/
structure Created (R : Runtime) (db : Db) (uuid : String) (input : CreateBooking) (db' : Db)
    (row : BookingRow) : Prop where
  id : row.id = uuid
  onChain : onChainBookingId uuid = some row.onChainBookingId
  visitTime : R.date input.visitTime = some row.visitTime
  renter : row.renter = input.renter
  host : row.host = input.host
  depositAmount : row.depositAmount = input.depositAmount
  parties : input.renter ≠ input.host
  proof : row.checkInProofHash = none
  status : row.status = .pendingFunding
  version : row.version = 0
  fresh : db.bookings.lookup row.id = none
  unique : ∀ r ∈ db.rows, r.onChainBookingId ≠ row.onChainBookingId
  bookings : db'.bookings = db.bookings.insert row.id row
  history : db'.history =
    db.history ++ [⟨row.id, none, .pendingFunding, input.renter, none⟩]
  payments : db'.payments = db.payments
  challenges : db'.challenges = db.challenges

theorem created_of_create {R : Runtime} {network : String} {db db' : Db} {now : Int}
    {uuid : String} {input : CreateBooking} {b : Booking}
    (h : create R network db now uuid input = .ok (db', b)) :
    ∃ row, Created R db uuid input db' row := by
  simp only [create, guard_eq_ok] at h
  obtain ⟨hparties, -, -, -, h⟩ := h
  split at h
  · rename_i onChain visitTime honChain hvisit
    unfold createTransaction at h
    simp only at h
    split at h
    · rename_i property slot hproperty hslot
      obtain ⟨-, h⟩ := guard_eq_ok.mp h
      obtain ⟨db₁, hinsert, h⟩ := bind_eq_ok.mp h
      obtain ⟨hfresh, hunique, rfl⟩ := insertBooking_eq_ok.mp hinsert
      simp only [pure_eq_ok, Prod.mk.injEq] at h
      obtain ⟨rfl, -⟩ := h
      have hhost : property.host = input.host := by
        have hp := List.find?_some hproperty
        simp only [Bool.and_eq_true, decide_eq_true_eq] at hp
        exact hp.2
      exact ⟨_, rfl, honChain, hvisit, rfl, hhost, rfl, hparties, rfl, rfl, rfl, hfresh,
        fun r hr => (hunique r hr).1, rfl, rfl, rfl, rfl⟩
    · cases h
  · cases h
  · cases h

section Created

variable {R : Runtime} {db db' : Db} {uuid : String} {input : CreateBooking} {row : BookingRow}

theorem Created.lookup_cases (h : Created R db uuid input db' row) {id : String} {x : BookingRow}
    (hx : db'.bookings.lookup id = some x) :
    id = row.id ∧ x = row ∨ db.bookings.lookup id = some x := by
  rw [h.bookings, lookup_insert] at hx
  split at hx
  · rename_i hid
    cases hx
    exact .inl ⟨hid, rfl⟩
  · exact .inr hx

theorem Created.lookup_keep (h : Created R db uuid input db' row) {id : String} {x : BookingRow}
    (hx : db.bookings.lookup id = some x) : db'.bookings.lookup id = some x := by
  rw [h.bookings, lookup_insert, if_neg ?_]
  · exact hx
  · rintro rfl
    rw [h.fresh] at hx
    cases hx

end Created

/-! ## A new call -/

section Call

variable {R : Runtime} {c : Call}

theorem read_op (R : Runtime) (c : Call) :
    (c.read R).op = { c.op with id := (R.uuid c.op.id).getD c.op.id } := by
  cases c <;> rfl

theorem read_of_uuid {id : String} (h : R.uuid c.op.id = some id) : (c.read R).op.id = id := by
  rw [read_op, h]
  rfl

theorem read_of_canonical (h : R.Canonical c.op.id) : c.read R = c := by
  unfold Call.read
  rw [show R.uuid c.op.id = some c.op.id from h]
  cases c <;> rfl

theorem enter_of_canonical (h : R.Canonical c.op.id) : c.enter R = ⟨c, .entered, false⟩ := by
  unfold Call.enter
  rw [read_of_canonical h, readUuid_eq_ok.mpr h]

/-- A call enters, or it has thrown. -/
theorem enter_cases (R : Runtime) (c : Call) :
    (∃ id, R.uuid c.op.id = some id ∧ (c.enter R).stage = .entered) ∨
      R.uuid c.op.id = none ∧ ∃ e, (c.enter R).stage = .threw e := by
  unfold Call.enter Runtime.readUuid
  cases h : R.uuid c.op.id with
  | some id => exact .inl ⟨id, rfl, rfl⟩
  | none => exact .inr ⟨rfl, _, rfl⟩

theorem enter_hasUpdated : (c.enter R).stage.hasUpdated = false := by
  rcases enter_cases R c with ⟨_, -, h⟩ | ⟨-, _, h⟩ <;> rw [h] <;> rfl

theorem enter_hasPaid : (c.enter R).stage.hasPaid = false := by
  rcases enter_cases R c with ⟨_, -, h⟩ | ⟨-, _, h⟩ <;> rw [h] <;> rfl

end Call

/-! ## The calls after a step -/

section Calls

variable {s s' : State} {i j : Nat} {p p' q : Process}

/-- Call `i` became `p'`, the others are what they were. -/
theorem call?_of_move (hp : s.call? i = some p) (hcalls : s'.calls = (s.move i p').calls)
    (hq : s'.call? j = some q) : j = i ∧ q = p' ∨ j ≠ i ∧ s.call? j = some q := by
  obtain ⟨hi, -⟩ := List.getElem?_eq_some_iff.mp hp
  rw [State.call?, hcalls] at hq
  exact getElem?_of_set hi hq

@[simp] theorem move_db : (s.move i p).db = s.db := rfl

theorem call?_move_self (hp : s.call? i = some p) : (s.move i p').call? i = some p' := by
  obtain ⟨hi, -⟩ := List.getElem?_eq_some_iff.mp hp
  rw [State.call?, State.move, List.getElem?_set_self hi]

theorem call?_move_ne (hij : i ≠ j) : (s.move i p').call? j = s.call? j := by
  rw [State.call?, State.move, List.getElem?_set_ne hij]
  rfl

theorem call?_of_append (hcalls : s'.calls = s.calls ++ [p]) (hq : s'.call? j = some q) :
    s.call? j = some q ∨ q = p := by
  rw [State.call?, hcalls] at hq
  exact (getElem?_of_concat hq).imp id And.right

end Calls

/-! ## The outcomes of a step -/

/-- Between the two statements of `checkIn` or `confirm`: the status is written, its history
    row is not. -/
def Process.writing (p : Process) : Bool :=
  p.op.payment.isNone && match p.stage with
    | .updated _ => true
    | _ => false

theorem enter_writing {R : Runtime} {c : Call} : (c.enter R).writing = false := by
  rcases enter_cases R c with ⟨_, -, h⟩ | ⟨-, _, h⟩ <;> simp [Process.writing, h]

/-- The steps of call `p` that change no table, with the stage they lead to. -/
inductive Quiet (s : State) (a : Action) (i : Nat) (p : Process) : Stage → Prop where
  | read (b : Booking) (row : BookingRow) (hstage : p.stage = .entered)
      (hrow : s.db.bookings.lookup p.op.id = some row) (hb : b = load s.db row)
      (hcheck : p.op.check b = .ok ()) : Quiet s a i p (.checked b)
  | opened (b : Booking) (row : BookingRow) (hstage : p.stage = .checked b)
      (hpay : p.op.payment.isSome) (hfree : s.rowLocked p.op.id = false)
      (hrow : s.db.bookings.lookup p.op.id = some row) (hadmits : p.op.admits row = true) :
      Quiet s a i p (.updated b)
  | paid (b : Booking) (hstage : p.stage = .updated b) (hpay : p.op.payment.isSome)
      (hfree : s.hashTaken p.op.hash = false)
      (hnew : ∀ q ∈ s.db.payments, q.hash ≠ p.op.hash) : Quiet s a i p (.paid b)
  | logged (b : Booking) (hstage : p.stage = .paid b) : Quiet s a i p (.logged b)
  | returned (b : Booking) (hstage : p.stage = .written) : Quiet s a i p (.returned b)
  | threw (e : String) (hflight : p.stage.inFlight = true)
      (hcause : a = .fail i e ∨ p.writing = false) : Quiet s a i p (.threw e)
  | stopped (hflight : p.stage.inFlight = true) (hcause : a = .stop i) : Quiet s a i p .stopped

/-- The call that a step is a step of. -/
def Action.mover : Action → Option Nat
  | .advance i => some i
  | .fail i _ => some i
  | .stop i => some i
  | .create _ _ _ => none
  | .call _ => none
  | .others _ _ => none

inductive Moves (R : Runtime) (s : State) : Action → State → Prop where
  | rejected (now : Int) (uuid : String) (input : CreateBooking) :
      Moves R s (.create now uuid input) s
  | create (now : Int) (uuid : String) (input : CreateBooking) (db : Db) (row : BookingRow)
      (h : Created R s.db uuid input db row) (huuid : R.Canonical uuid) :
      Moves R s (.create now uuid input) { s with db := db }
  | call (c : Call) : Moves R s (.call c) { s with calls := s.calls ++ [c.enter R] }
  | others (wallets : AList fun _ : Address => String)
      (challenges : AList fun _ : String => CheckInChallenge) :
      Moves R s (.others wallets challenges)
        { s with db := { s.db with wallets := wallets, challenges := challenges } }
  | quiet (a : Action) (i : Nat) (p : Process) (stage : Stage) (hmover : a.mover = some i)
      (hp : s.call? i = some p) (h : Quiet s a i p stage) :
      Moves R s a (s.move i { p with stage := stage })
  | update (i : Nat) (p : Process) (b : Booking) (row : BookingRow) (hp : s.call? i = some p)
      (hstage : p.stage = .checked b) (hpay : p.op.payment = none)
      (hfree : s.rowLocked p.op.id = false)
      (hrow : s.db.bookings.lookup p.op.id = some row) (hadmits : p.op.admits row = true) :
      Moves R s (.advance i)
        (State.move { s with
          db := { s.db with bookings := s.db.bookings.insert p.op.id (p.op.apply row) } } i
          { p with stage := .updated b, durable := true })
  | record (i : Nat) (p : Process) (b : Booking) (hp : s.call? i = some p)
      (hstage : p.stage = .updated b) (hpay : p.op.payment = none) :
      Moves R s (.advance i)
        (State.move { s with db := s.db.insertHistory (p.op.historyRow b) } i
          { p with stage := .written })
  | commit (i : Nat) (p : Process) (b : Booking) (kind : TransactionKind) (v : Verification)
      (missing : String) (hp : s.call? i = some p) (hstage : p.stage = .logged b)
      (hpay : p.op.payment = some ⟨kind, some v, missing⟩) :
      Moves R s (.advance i)
        (State.move { s with db := p.op.commit b kind v s.db } i
          { p with stage := .written, durable := true })

theorem moves_of_advance {R : Runtime} {s s' : State} {i : Nat} {p : Process}
    (hp : s.call? i = some p) (h : advance s i p = some s') : Moves R s (.advance i) s' := by
  -- a step that changes only the stage
  have hquiet : ∀ stage, Quiet s (.advance i) i p stage → s.move i { p with stage := stage } = s' →
      Moves R s (.advance i) s' := by
    rintro stage hq rfl
    exact .quiet _ i p stage rfl hp hq
  unfold advance at h
  split at h
  case h_1 hstage =>
    have hwriting : p.writing = false := by simp [Process.writing, hstage]
    split at h
    · rename_i e hread
      exact hquiet _ (.threw e (by rw [hstage]; rfl) (.inr hwriting)) (by simpa using h)
    · rename_i b hread
      obtain ⟨row, hrow, hb, hcheck⟩ := readAndCheck_eq_ok.mp hread
      exact hquiet _ (.read b row hstage hrow hb hcheck) (by simpa using h)
  case h_2 b hstage =>
    have hwriting : p.writing = false := by simp [Process.writing, hstage]
    split at h
    · cases h
    · rename_i hlocked
      have hfree : s.rowLocked p.op.id = false := by simpa using hlocked
      rcases updateMany_cases s.db p.op.id p.op.admits p.op.apply with
        ⟨row, hrow, hadmits, hupd⟩ | hupd
      · rw [hupd] at h
        simp only [ne_eq, not_true_eq_false, if_false] at h
        split at h
        · rename_i hpay
          exact hquiet _ (.opened b row hstage hpay hfree hrow hadmits) (by simpa using h)
        · rename_i hpay
          simp only [Option.some.injEq] at h
          subst h
          exact .update i p b row hp hstage (by simpa using hpay) hfree hrow hadmits
      · rw [hupd] at h
        exact hquiet _ (.threw p.op.updateError (by rw [hstage]; rfl) (.inr hwriting))
          (by simpa using h)
  case h_3 b hstage =>
    split at h
    · rename_i hpay
      simp only [Option.some.injEq] at h
      subst h
      exact .record i p b hp hstage hpay
    · rename_i kind v missing hpay
      have hsome : p.op.payment.isSome := by simp [hpay]
      have hwriting : p.writing = false := by simp [Process.writing, hpay]
      split at h
      · cases h
      · rename_i htaken
        have hfree : s.hashTaken p.op.hash = false := by simpa using htaken
        split at h
        · rename_i e hins
          exact hquiet _ (.threw e (by rw [hstage]; rfl) (.inr hwriting)) (by simpa using h)
        · rename_i db hins
          obtain ⟨hnew, -⟩ := insertPayment_eq_ok.mp hins
          exact hquiet _ (.paid b hstage hsome hfree hnew) (by simpa using h)
    · cases h
  case h_4 b hstage => exact hquiet _ (.logged b hstage) (by simpa using h)
  case h_5 b hstage =>
    split at h
    · rename_i kind v missing hpay
      simp only [Option.some.injEq] at h
      subst h
      exact .commit i p b kind v missing hp hstage hpay
    · cases h
  case h_6 hstage =>
    have hwriting : p.writing = false := by simp [Process.writing, hstage]
    split at h
    · rename_i e hget
      exact hquiet _ (.threw e (by rw [hstage]; rfl) (.inr hwriting)) (by simpa using h)
    · rename_i b hget
      exact hquiet _ (.returned b hstage) (by simpa using h)
  all_goals cases h

/-- A booking is created under an id in the database's spelling, or nothing changes. -/
theorem create_step {R : Runtime} {network : String} {s s' : State} {now : Int} {uuid : String}
    {input : CreateBooking} (h : step R network s (.create now uuid input) = some s') :
    R.Canonical uuid ∧
      ((∃ db b, create R network s.db now uuid input = .ok (db, b) ∧ s' = { s with db := db }) ∨
        ∃ e, create R network s.db now uuid input = .error e ∧ s' = s) := by
  simp only [step, Option.ite_none_left_eq_some, not_not] at h
  obtain ⟨huuid, h⟩ := h
  refine ⟨huuid, ?_⟩
  cases hcreate : create R network s.db now uuid input with
  | ok r =>
    rw [hcreate] at h
    exact .inl ⟨r.1, r.2, rfl, (Option.some.inj h).symm⟩
  | error e =>
    rw [hcreate] at h
    exact .inr ⟨e, rfl, (Option.some.inj h).symm⟩

/-- Every step has one of the outcomes of `Moves`. -/
theorem moves_of_step {R : Runtime} {network : String} {s s' : State} {a : Action}
    (h : step R network s a = some s') : Moves R s a s' := by
  cases a with
  | create now uuid input =>
    obtain ⟨huuid, ⟨db, b, hcreate, rfl⟩ | ⟨e, -, rfl⟩⟩ := create_step h
    · obtain ⟨row, hrow⟩ := created_of_create hcreate
      exact .create now uuid input db row hrow huuid
    · exact .rejected now uuid input
  | call c =>
    cases h
    exact .call c
  | advance i =>
    obtain ⟨p, hp, h⟩ := Option.bind_eq_some_iff.mp h
    exact moves_of_advance hp h
  | fail i e =>
    obtain ⟨p, hp, h⟩ := Option.bind_eq_some_iff.mp h
    simp only [Option.ite_none_right_eq_some, Option.some.injEq] at h
    obtain ⟨hflight, rfl⟩ := h
    exact .quiet _ i p _ rfl hp (.threw e hflight (.inl rfl))
  | stop i =>
    obtain ⟨p, hp, h⟩ := Option.bind_eq_some_iff.mp h
    simp only [Option.ite_none_right_eq_some, Option.some.injEq] at h
    obtain ⟨hflight, rfl⟩ := h
    exact .quiet _ i p _ rfl hp (.stopped hflight rfl)
  | others wallets challenges =>
    cases h
    exact .others wallets challenges

/-- A call stays under its number, and once durable it stays durable. -/
theorem call_step {R : Runtime} {network : String} {s s' : State} {a : Action} {i : Nat}
    {p : Process} (hstep : step R network s a = some s') (hp : s.call? i = some p) :
    ∃ p', s'.call? i = some p' ∧ p'.call = p.call ∧ (p.durable = true → p'.durable = true) := by
  -- call `j` became `q'`, which is at least as durable
  have hmove : ∀ (t : State) j q q', s.call? j = some q → t.calls = s.calls → q'.call = q.call →
      (q.durable = true → q'.durable = true) →
      ∃ p', (t.move j q').call? i = some p' ∧ p'.call = p.call ∧
        (p.durable = true → p'.durable = true) := by
    intro t j q q' hq ht hcall hd
    have hcalls : ∀ k, t.call? k = s.call? k := fun k => by rw [State.call?, ht]; rfl
    by_cases hji : j = i
    · subst hji
      obtain rfl : p = q := by simpa [hp] using hq
      exact ⟨q', call?_move_self ((hcalls j).trans hq), hcall, hd⟩
    · exact ⟨p, by rw [call?_move_ne hji, hcalls, hp], rfl, id⟩
  cases moves_of_step hstep with
  | rejected => exact ⟨p, hp, rfl, id⟩
  | create => exact ⟨p, hp, rfl, id⟩
  | others => exact ⟨p, hp, rfl, id⟩
  | call c =>
    exact ⟨p, getElem?_concat_keep hp, rfl, id⟩
  | quiet _ j q stage _ hq => exact hmove s j q _ hq rfl rfl id
  | update j q b row hq => exact hmove _ j q _ hq rfl rfl (fun _ => rfl)
  | record j q b hq => exact hmove _ j q _ hq rfl rfl id
  | commit j q b kind v missing hq => exact hmove _ j q _ hq rfl rfl (fun _ => rfl)

/-- A call was there before the step, or the step is its arrival. -/
theorem call_of_step {R : Runtime} {network : String} {s s' : State} {a : Action} {i : Nat}
    {p' : Process} (hstep : step R network s a = some s') (hp' : s'.call? i = some p') :
    (∃ p, s.call? i = some p ∧ p.call = p'.call) ∨ ∃ c, a = .call c ∧ p' = c.enter R := by
  -- call `j` became `q'`
  have hmove : ∀ (t : State) j q q', s.call? j = some q → t.calls = s.calls →
      (t.move j q').call? i = some p' → q'.call = q.call →
      ∃ p, s.call? i = some p ∧ p.call = p'.call := by
    intro t j q q' hq ht hp' hcall
    rcases call?_of_move hq (by rw [State.move, State.move, ht]) hp' with ⟨rfl, rfl⟩ | ⟨-, hp⟩
    · exact ⟨q, hq, hcall.symm⟩
    · exact ⟨p', hp, rfl⟩
  cases moves_of_step hstep with
  | rejected => exact .inl ⟨p', hp', rfl⟩
  | create => exact .inl ⟨p', hp', rfl⟩
  | others => exact .inl ⟨p', hp', rfl⟩
  | call c =>
    rcases call?_of_append rfl hp' with hp | rfl
    · exact .inl ⟨p', hp, rfl⟩
    · exact .inr ⟨c, rfl, rfl⟩
  | quiet _ j q stage _ hq => exact .inl (hmove s j q _ hq rfl hp' rfl)
  | update j q b row hq => exact .inl (hmove _ j q _ hq rfl hp' rfl)
  | record j q b hq => exact .inl (hmove _ j q _ hq rfl hp' rfl)
  | commit j q b kind v missing hq => exact .inl (hmove _ j q _ hq rfl hp' rfl)

/-- Only other services write the challenges. -/
theorem challenges_step {R : Runtime} {network : String} {s s' : State} {a : Action}
    (hstep : step R network s a = some s') :
    s'.db.challenges = s.db.challenges ∨
      ∃ wallets challenges, a = .others wallets challenges ∧ s'.db.challenges = challenges := by
  cases moves_of_step hstep with
  | create now uuid input db row hrow => exact .inl hrow.challenges
  | others wallets challenges => exact .inr ⟨wallets, challenges, rfl, rfl⟩
  | commit => exact .inl commit_challenges
  | _ => exact .inl rfl

/-- Only commits write payments, one at a time. -/
theorem payments_step {R : Runtime} {network : String} {s s' : State} {a : Action}
    (hstep : step R network s a = some s') :
    s'.db.payments = s.db.payments ∨ ∃ i p b kind v missing, s.call? i = some p ∧
      p.op.payment = some ⟨kind, some v, missing⟩ ∧
      s'.db.payments = s.db.payments ++ [p.op.paymentRow b kind v] := by
  cases moves_of_step hstep with
  | create now uuid input db row hrow => exact .inl hrow.payments
  | commit i p b kind v missing hp hstage hpay =>
    exact .inr ⟨i, p, b, kind, v, missing, hp, hpay, commit_payments⟩
  | _ => exact .inl rfl

theorem call_exec {R : Runtime} {network : String} {s s' : State} {as : List Action} {i : Nat}
    {p : Process} (hrun : (machine R network).exec s as = some s') (hp : s.call? i = some p) :
    ∃ p', s'.call? i = some p' ∧ p'.call = p.call ∧ (p.durable = true → p'.durable = true) := by
  refine (machine R network).exec_invariant (I := fun t => ∃ p', t.call? i = some p' ∧
    p'.call = p.call ∧ (p.durable = true → p'.durable = true)) ?_ hrun ⟨p, hp, rfl, id⟩
  rintro t a t' ⟨q, hq, hcall, hd⟩ hstep
  obtain ⟨q', hq', hcall', hd'⟩ := call_step hstep hq
  exact ⟨q', hq', hcall'.trans hcall, fun h => hd' (hd h)⟩

end Workflow

end PovDeposit.Api
