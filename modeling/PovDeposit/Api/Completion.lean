/-
  Calls of the workflow that run to their end.

  A call whose conditions are met returns when it is stepped, with no step of any other call
  in between (`serve_call`), and an open transaction commits when nothing else holds its
  payment hash (`commit_call`). Both say what the tables are afterwards.
-/
import PovDeposit.Api.Lifecycle

namespace PovDeposit.Api.Workflow

open PovDeposit.Lib

/-! ## One statement of a call -/

section Move

variable {s : State} {i : Nat} {p q : Process}

theorem move_move : (s.move i p).move i q = s.move i q := by
  simp [State.move]

/-- Writing the tables and moving the call again. -/
theorem move_write_move {db : Db} :
    State.move { s.move i p with db := db } i q = State.move { s with db := db } i q := by
  simp [State.move]

theorem move_self (hp : s.call? i = some p) : s.move i p = s := by
  obtain ⟨hi, hget⟩ := List.getElem?_eq_some_iff.mp hp
  unfold State.move
  rw [← hget, List.set_getElem_self]

end Move

theorem check_of_admits {op : Operation} {db : Db} {row : BookingRow} (h : op.admits row = true)
    (hhash : isHash op.hash = true) (hpay : ∀ pay ∈ op.payment, pay.verification.isSome = true) :
    op.check (load db row) = .ok () := by
  obtain ⟨hstatus, hparty⟩ := admits_iff.mp h
  have hstate : (load db row).state = op.source := hstatus
  have hnone : op.party.filter (fun p => p.role.of (load db row).renter (load db row).host ≠ p.actor) =
      none := by
    rw [Option.filter_eq_none_iff]
    intro p hp
    simpa [load, fromDatabase] using hparty p hp
  have hverified : op.payment.filter (fun p => p.verification.isNone) = none := by
    rw [Option.filter_eq_none_iff]
    intro pay hp
    simpa [Option.isNone_iff_eq_none, Option.isSome_iff_ne_none] using hpay pay hp
  unfold Operation.check
  rw [if_neg (not_not.mpr hstate), hnone]
  simp only [hhash, not_true_eq_false, if_false, hverified]

theorem updateMany_row {db : Db} {op : Operation} {row : BookingRow}
    (hrow : db.bookings.lookup op.id = some row) (hadmits : op.admits row = true) :
    db.updateMany op.id op.admits op.apply =
      (1, { db with bookings := db.bookings.insert op.id (op.apply row) }) := by
  simp only [Db.updateMany, hrow, hadmits, if_true]

section Statements

variable (R : Runtime) (network : String) {s : State} {i : Nat} {p : Process} {b : Booking}
  {row : BookingRow} (hp : s.call? i = some p)
include hp

theorem step_advance : step R network s (.advance i) = advance s i p := by
  simp [step, hp]

theorem step_read (hstage : p.stage = .entered)
    (hrow : s.db.bookings.lookup p.op.id = some row) (hcheck : p.op.check (load s.db row) = .ok ()) :
    step R network s (.advance i) = some (s.move i { p with stage := .checked (load s.db row) }) := by
  have hread : p.op.readAndCheck s.db = .ok (load s.db row) :=
    readAndCheck_eq_ok.mpr ⟨row, hrow, rfl, hcheck⟩
  rw [step_advance R network hp, advance, hstage]
  simp only [hread]

theorem step_open (hstage : p.stage = .checked b) (hfree : s.rowLocked p.op.id = false)
    (hrow : s.db.bookings.lookup p.op.id = some row) (hadmits : p.op.admits row = true)
    (hpay : p.op.payment.isSome = true) :
    step R network s (.advance i) = some (s.move i { p with stage := .updated b }) := by
  rw [step_advance R network hp, advance, hstage]
  simp [hfree, updateMany_row hrow hadmits, hpay]

theorem step_update (hstage : p.stage = .checked b) (hfree : s.rowLocked p.op.id = false)
    (hrow : s.db.bookings.lookup p.op.id = some row) (hadmits : p.op.admits row = true)
    (hpay : p.op.payment = none) :
    step R network s (.advance i) = some (State.move { s with
      db := { s.db with bookings := s.db.bookings.insert p.op.id (p.op.apply row) } } i
      { p with stage := .updated b, durable := true }) := by
  rw [step_advance R network hp, advance, hstage]
  simp [hfree, updateMany_row hrow hadmits, hpay]

theorem step_record (hstage : p.stage = .updated b) (hpay : p.op.payment = none) :
    step R network s (.advance i) = some (State.move { s with
      db := s.db.insertHistory (p.op.historyRow b) } i { p with stage := .written }) := by
  rw [step_advance R network hp, advance, hstage]
  simp only [hpay]

theorem step_pay {kind : TransactionKind} {v : Verification} {missing : String}
    (hstage : p.stage = .updated b) (hpay : p.op.payment = some ⟨kind, some v, missing⟩)
    (hfree : s.hashTaken p.op.hash = false) (hnew : ∀ q ∈ s.db.payments, q.hash ≠ p.op.hash) :
    step R network s (.advance i) = some (s.move i { p with stage := .paid b }) := by
  have hinsert : s.db.insertPayment (p.op.paymentRow b kind v) =
      .ok { s.db with payments := s.db.payments ++ [p.op.paymentRow b kind v] } :=
    insertPayment_eq_ok.mpr ⟨hnew, rfl⟩
  rw [step_advance R network hp, advance, hstage]
  simp [hpay, hfree, hinsert]

theorem step_log (hstage : p.stage = .paid b) :
    step R network s (.advance i) = some (s.move i { p with stage := .logged b }) := by
  rw [step_advance R network hp, advance, hstage]

theorem step_commit {kind : TransactionKind} {v : Verification} {missing : String}
    (hstage : p.stage = .logged b) (hpay : p.op.payment = some ⟨kind, some v, missing⟩) :
    step R network s (.advance i) = some (State.move { s with
      db := p.op.commit b kind v s.db } i { p with stage := .written, durable := true }) := by
  rw [step_advance R network hp, advance, hstage]
  simp only [hpay]

theorem step_return (hstage : p.stage = .written)
    (hrow : s.db.bookings.lookup p.op.id = some row) :
    step R network s (.advance i) = some (s.move i { p with stage := .returned (load s.db row) }) := by
  have hget : findUnique s.db p.op.id = .ok (load s.db row) := findUnique_eq_ok.mpr ⟨row, hrow, rfl⟩
  rw [step_advance R network hp, advance, hstage]
  simp only [hget]

end Statements

/-! ## An open transaction -/

/-- An open transaction whose payment hash nothing else holds commits. -/
theorem commit_call (R : Runtime) (network : String) {s : State} {i : Nat} {p : Process}
    {kind : TransactionKind} {v : Verification} {missing : String} (hp : s.call? i = some p)
    (hpay : p.op.payment = some ⟨kind, some v, missing⟩) (hopen : p.stage.hasUpdated = true)
    (hfree : ∀ j q, j ≠ i → s.call? j = some q → q.holdsHash p.op.hash = false)
    (hnew : ∀ q ∈ s.db.payments, q.hash ≠ p.op.hash) :
    ∃ n b, (machine R network).exec s (List.replicate n (.advance i)) = some (State.move { s with
      db := p.op.commit b kind v s.db } i { p with stage := .written, durable := true }) := by
  -- from each of the three stages to the next
  have hlogged : ∀ b, (machine R network).exec (s.move i { p with stage := .logged b })
      (List.replicate 1 (.advance i)) = some (State.move { s with
        db := p.op.commit b kind v s.db } i { p with stage := .written, durable := true }) := by
    intro b
    have hmoved : (s.move i { p with stage := .logged b }).call? i =
        some { p with stage := .logged b } := call?_move_self hp
    have hstep := step_commit R network hmoved rfl hpay
    exact (machine R network).exec_single (hstep.trans (congrArg some move_write_move))
  have hpaid : ∀ b, (machine R network).exec (s.move i { p with stage := .paid b })
      (List.replicate 2 (.advance i)) = some (State.move { s with
        db := p.op.commit b kind v s.db } i { p with stage := .written, durable := true }) := by
    intro b
    have hmoved : (s.move i { p with stage := .paid b }).call? i =
        some { p with stage := .paid b } := call?_move_self hp
    have hstep := step_log R network hmoved rfl
    rw [move_move] at hstep
    exact ((machine R network).exec_cons_eq_some).mpr ⟨_, hstep, hlogged b⟩
  cases hstage : p.stage with
  | updated b =>
    have htaken : s.hashTaken p.op.hash = false := by
      rw [State.hashTaken, List.any_eq_false]
      intro q hq
      obtain ⟨j, hj⟩ := List.mem_iff_getElem?.mp hq
      by_cases hji : j = i
      · subst hji
        obtain rfl : p = q := by simpa [State.call?, hj] using hp.symm
        simp [Process.holdsHash, hstage, Stage.hasPaid]
      · simpa using hfree j q hji hj
    have hstep := step_pay R network hp hstage hpay htaken hnew
    exact ⟨3, b, ((machine R network).exec_cons_eq_some).mpr ⟨_, hstep, hpaid b⟩⟩
  | paid b =>
    have hsame : s.move i { p with stage := .paid b } = s := by
      rw [← hstage]
      exact move_self hp
    exact ⟨2, b, by rw [← hpaid b, hsame]⟩
  | logged b =>
    have hsame : s.move i { p with stage := .logged b } = s := by
      rw [← hstage]
      exact move_self hp
    exact ⟨1, b, by rw [← hlogged b, hsame]⟩
  | _ =>
    rw [hstage] at hopen
    cases hopen

/-! ## A whole call -/

/-- Nothing stands in the way of call `c`: its booking meets its condition and is not locked,
    and its payment hash is new. -/
structure Clear (s : State) (c : Call) (row : BookingRow) : Prop where
  stored : s.db.bookings.lookup c.op.id = some row
  admits : c.op.admits row = true
  hash : isHash c.op.hash = true
  verified : ∀ pay ∈ c.op.payment, pay.verification.isSome = true
  unlocked : s.rowLocked c.op.id = false
  untaken : c.op.payment.isSome = true → s.hashTaken c.op.hash = false
  unused : c.op.payment.isSome = true → ∀ q ∈ s.db.payments, q.hash ≠ c.op.hash

/-- What a call that returned has done to the state it found. -/
structure Completed (s : State) (c : Call) (row : BookingRow) (t : State) : Prop where
  bookings : t.db.bookings = s.db.bookings.insert c.op.id (c.op.apply row)
  payments : ∀ q ∈ t.db.payments,
    q ∈ s.db.payments ∨ c.op.payment.isSome = true ∧ q.hash = c.op.hash
  challenges : t.db.challenges = s.db.challenges
  calls : ∃ b, t.calls = s.calls ++ [⟨c, .returned b, true⟩]

section Call

variable {s : State} {c : Call} {p : Process} {row : BookingRow}

theorem call?_concat (s : State) (p : Process) :
    ({ s with calls := s.calls ++ [p] } : State).call? s.calls.length = some p :=
  List.getElem?_concat_length

theorem move_concat {db : Db} {q : Process} :
    State.move ({ db := db, calls := s.calls ++ [p] }) s.calls.length q =
      { db := db, calls := s.calls ++ [q] } := by
  simp [State.move]

/-- A call that is at work on nothing yet locks nothing. -/
theorem rowLocked_concat {id : String} (p : Process) (h : s.rowLocked id = false)
    (hp : p.stage.hasUpdated = false) :
    ({ s with calls := s.calls ++ [p] } : State).rowLocked id = false := by
  have hnew : p.holdsRow id = false := by simp [Process.holdsRow, hp]
  unfold State.rowLocked at h ⊢
  rw [List.any_append, h]
  simp [hnew]

/-- The steps of a call between the checks and the final `get`. -/
theorem write_call (R : Runtime) (network : String) (h : Clear s c row) (b : Booking) :
    ∃ n db, (machine R network).exec { s with calls := s.calls ++ [⟨c, .checked b, false⟩] }
        (List.replicate n (.advance s.calls.length)) =
        some { db := db, calls := s.calls ++ [⟨c, .written, true⟩] } ∧
      db.bookings = s.db.bookings.insert c.op.id (c.op.apply row) ∧
      (∀ q ∈ db.payments, q ∈ s.db.payments ∨ c.op.payment.isSome = true ∧ q.hash = c.op.hash) ∧
      db.challenges = s.db.challenges := by
  have hchecked := call?_concat s ⟨c, .checked b, false⟩
  have hfree := rowLocked_concat ⟨c, .checked b, false⟩ h.unlocked rfl
  cases hpay : c.op.payment with
  | none =>
    -- two statements, each with its own commit
    have hupdate := step_update R network hchecked rfl hfree h.stored h.admits hpay
    rw [move_concat] at hupdate
    have hrecord := step_record R network (b := b)
      (call?_concat { s with db := { s.db with
        bookings := s.db.bookings.insert c.op.id (c.op.apply row) } } ⟨c, .updated b, true⟩) rfl hpay
    rw [move_concat] at hrecord
    refine ⟨2, _, ((machine R network).exec_cons_eq_some).mpr ⟨_, hupdate,
      (machine R network).exec_single hrecord⟩, rfl, fun q hq => .inl hq, rfl⟩
  | some pay =>
    have hsome : c.op.payment.isSome = true := by simp [hpay]
    obtain ⟨kind, _ | v, missing⟩ := pay
    · have hverified := h.verified _ hpay
      cases hverified
    have hopen := step_open R network hchecked rfl hfree h.stored h.admits hsome
    rw [move_concat] at hopen
    -- the new call is the only one that can hold its hash
    obtain ⟨n, b', hcommit⟩ := commit_call R network
      (call?_concat s ⟨c, .updated b, false⟩) hpay rfl
      (fun j q hj hq => by
        rcases getElem?_of_concat hq with hold | ⟨hnew, -⟩
        · have htaken := h.untaken hsome
          rw [State.hashTaken, List.any_eq_false] at htaken
          simpa using htaken q (List.mem_of_getElem? hold)
        · exact absurd hnew hj)
      (h.unused hsome)
    rw [move_concat] at hcommit
    refine ⟨n + 1, _, ((machine R network).exec_cons_eq_some).mpr ⟨_, hopen, hcommit⟩,
      commit_bookings h.stored h.admits, fun q hq => ?_, commit_challenges⟩
    rw [commit_payments, List.mem_append, List.mem_singleton] at hq
    rcases hq with hq | rfl
    · exact .inl hq
    · exact .inr ⟨rfl, rfl⟩

/-- A call for which all is clear returns when it is stepped. -/
theorem serve_call (R : Runtime) (network : String) (h : Clear s c row)
    (hid : R.Canonical c.op.id) :
    ∃ n t, (machine R network).exec s (.call c :: List.replicate n (.advance s.calls.length)) =
      some t ∧ Completed s c row t := by
  have hcall : step R network s (.call c) =
      some { s with calls := s.calls ++ [⟨c, .entered, false⟩] } := by
    rw [step, enter_of_canonical hid]
  have hread := step_read R network (call?_concat s ⟨c, .entered, false⟩) rfl
    h.stored (check_of_admits h.admits h.hash h.verified)
  rw [move_concat] at hread
  obtain ⟨n, db, hwrite, hbookings, hpayments, hchallenges⟩ :=
    write_call R network h (load s.db row)
  have hstored : db.bookings.lookup c.op.id = some (c.op.apply row) := by
    rw [hbookings, lookup_insert, if_pos rfl]
  have hreturn := step_return R network
    (call?_concat { s with db := db } ⟨c, .written, true⟩) rfl hstored
  rw [move_concat] at hreturn
  refine ⟨1 + n + 1,
    { db := db, calls := s.calls ++ [⟨c, .returned (load db (c.op.apply row)), true⟩] },
    ((machine R network).exec_cons_eq_some).mpr ⟨_, hcall, ?_⟩,
    hbookings, hpayments, hchallenges, _, rfl⟩
  rw [← List.replicate_append_replicate, ← List.replicate_append_replicate]
  exact (machine R network).exec_trans
    ((machine R network).exec_trans ((machine R network).exec_single hread) hwrite)
    ((machine R network).exec_single hreturn)

end Call

end PovDeposit.Api.Workflow
