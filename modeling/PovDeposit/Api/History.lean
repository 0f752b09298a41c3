/-
  The status history as an audit chain.

  `chain` is the list of links (from, to) that leads to a status. `fund` and `refund` write
  the status and its link in one transaction, `checkIn` and `confirm` in two statements; a
  call between the two owes its link (`Process.writing`). `Logged` is the invariant: the
  chain of a booking's status is its history followed by the links its calls still owe.

  It holds along the runs whose steps are all `Undisturbed`: no call ends while it owes a
  link, and a `confirm` writes its link only after the `checkIn` before it wrote its own.
  When no call is in flight nothing is owed, and the history is the whole chain.
-/
import PovDeposit.Api.Lifecycle

namespace PovDeposit.Api

open PovDeposit.Lib

/-- The links of the history that leads to a status. -/
def chain (status : BookingStatus) : List (Option BookingStatus × BookingStatus) :=
  (none :: (path status).dropLast.map some).zip (path status)

def BookingStatusHistory.link (h : BookingStatusHistory) : Option BookingStatus × BookingStatus :=
  (h.fromStatus, h.toStatus)

def historyOf (db : Db) (id : String) : List BookingStatusHistory :=
  db.history.filter fun h => h.bookingId = id

/-- What one history row more is to each booking. -/
theorem historyOf_of_concat {db db' : Db} {h : BookingStatusHistory}
    (hadd : db'.history = db.history ++ [h]) (id : String) :
    historyOf db' id = historyOf db id ++ if h.bookingId = id then [h] else [] := by
  unfold historyOf
  rw [hadd, List.filter_append]
  by_cases hid : h.bookingId = id <;> simp [hid]

/-- The history rows of a booking are a complete chain up to its status. -/
structure AuditChain (row : BookingRow) (rows : List BookingStatusHistory) : Prop where
  first : rows.head?.map BookingStatusHistory.link = some (none, .pendingFunding)
  linked : rows.IsChain fun h h' => h'.fromStatus = some h.toStatus
  last : rows.getLast?.map BookingStatusHistory.toStatus = some row.status
  count : rows.length = row.version + 1

/-- Rows with the links of the chain are an audit chain. -/
theorem auditChain_of_links {row : BookingRow} {rows : List BookingStatusHistory}
    (hstatus : row.status ∈ lifecycle) (hversion : row.version + 1 = (path row.status).length)
    (h : rows.map BookingStatusHistory.link = chain row.status) : AuditChain row rows := by
  have hchain : (chain row.status).head? = some (none, .pendingFunding) ∧
      (chain row.status).IsChain (fun l l' => l'.1 = some l.2) ∧
      (chain row.status).getLast?.map Prod.snd = some row.status ∧
      (chain row.status).length = (path row.status).length := by
    simp only [lifecycle, List.mem_cons, List.not_mem_nil, or_false] at hstatus
    rcases hstatus with hs | hs | hs | hs | hs <;> rw [hs] <;> decide
  rw [← h] at hchain
  obtain ⟨hfirst, hlinked, hlast, hcount⟩ := hchain
  refine ⟨?_, ?_, ?_, ?_⟩
  · rw [← List.head?_map]
    exact hfirst
  · exact (List.isChain_map _).mp hlinked
  · rw [List.getLast?_map, Option.map_map] at hlast
    exact hlast
  · rw [List.length_map] at hcount
    rw [hcount, hversion]

namespace Workflow

/-- The link a call adds to the history. -/
def Operation.link (op : Operation) : Option BookingStatus × BookingStatus :=
  (some op.source, op.target)

theorem chain_target (c : Call) : chain c.op.target = chain c.op.source ++ [c.op.link] := by
  cases c <;> rfl

/-- Nothing follows the link of a completion. -/
theorem completion_last (status : BookingStatus) :
    (chain status).Pairwise fun l _ => l ≠ (some .checkedIn, .completed) := by
  cases status <;> decide

theorem chain_nodup (status : BookingStatus) : (chain status).Nodup := by
  cases status <;> decide

theorem writing_iff {p : Process} :
    p.writing = true ↔ p.op.payment = none ∧ ∃ b, p.stage = .updated b := by
  unfold Process.writing
  rw [Bool.and_eq_true, Option.isNone_iff_eq_none]
  refine and_congr_right fun _ => ?_
  split
  · rename_i b hstage
    simp [hstage]
  · rename_i hstage
    simp only [Bool.false_eq_true, false_iff]
    rintro ⟨b, hb⟩
    exact hstage b hb

/-- A call on booking `id` has written its status and owes the link `l`. -/
def State.Owes (s : State) (id : String) (l : Option BookingStatus × BookingStatus) : Prop :=
  ∃ i p, s.call? i = some p ∧ p.writing = true ∧ p.op.id = id ∧ p.op.link = l

/-- No call is between its first statement and its end. -/
def State.Quiescent (s : State) : Prop := ∀ i p, s.call? i = some p → p.stage.inFlight = false

theorem quiescent_of_all {s : State} (h : s.calls.all (fun p => !p.stage.inFlight) = true) :
    s.Quiescent := by
  intro i p hp
  simpa using List.all_eq_true.mp h p (List.mem_of_getElem? hp)

theorem State.Quiescent.owes_nothing {s : State} (h : s.Quiescent) (id : String)
    (l : Option BookingStatus × BookingStatus) : ¬ s.Owes id l := by
  rintro ⟨i, p, hp, hwriting, -⟩
  obtain ⟨-, b, hstage⟩ := writing_iff.mp hwriting
  have := h i p hp
  rw [hstage] at this
  cases this

/-- The step ends no call that owes a link, and writes no link of a `confirm` while a
    `checkIn` on the same booking owes one. -/
def Undisturbed (s : State) : Action → Prop
  | .advance i => ∀ p ∈ s.call? i, p.writing = true → p.call.goal = .settlement →
      ∀ q ∈ s.calls, q.writing = true → q.op.id = p.op.id → q.call.goal ≠ .presence
  | .fail i _ => ∀ p ∈ s.call? i, p.writing = false
  | .stop i => ∀ p ∈ s.call? i, p.writing = false
  | .create _ _ _ => True
  | .call _ => True
  | .others _ _ => True

instance (s : State) : (a : Action) → Decidable (Undisturbed s a)
  | .advance i => inferInstanceAs (Decidable (∀ p ∈ s.call? i, _))
  | .fail i _ => inferInstanceAs (Decidable (∀ p ∈ s.call? i, _))
  | .stop i => inferInstanceAs (Decidable (∀ p ∈ s.call? i, _))
  | .create _ _ _ => inferInstanceAs (Decidable True)
  | .call _ => inferInstanceAs (Decidable True)
  | .others _ _ => inferInstanceAs (Decidable True)

/-! ## The invariant -/

structure Logged (s : State) : Prop where
  coherent : Coherent s
  links : ∀ id row, s.db.bookings.lookup id = some row → ∃ owed,
    chain row.status = (historyOf s.db id).map BookingStatusHistory.link ++ owed ∧
    ∀ l, l ∈ owed ↔ s.Owes id l
  known : ∀ h ∈ s.db.history, ∃ row, s.db.bookings.lookup h.bookingId = some row

theorem logged_of_fresh {s : State} (h : Fresh s) : Logged s := by
  refine ⟨coherent_of_fresh h, fun id row hrow => ?_, ?_⟩
  · rw [h.bookings, AList.lookup_empty] at hrow
    cases hrow
  · simp [h.history]

/-- A call that owes a link has moved its row. -/
theorem Coherent.durable_of_writing {s : State} (h : Coherent s) {i : Nat} {p : Process}
    (hp : s.call? i = some p) (hwriting : p.writing = true) : p.durable = true := by
  obtain ⟨hpay, b, hstage⟩ := writing_iff.mp hwriting
  exact h.expected i p true hp (by simp [Process.expected, hstage, hpay])

/-- The calls that write their history in a statement of their own. -/
theorem goal_of_writing {p : Process} (hwriting : p.writing = true) :
    p.call.goal = .presence ∧ p.op.link = (some .funded, .checkedIn) ∨
      p.call.goal = .settlement ∧ p.op.link = (some .checkedIn, .completed) := by
  obtain ⟨hpay, -⟩ := writing_iff.mp hwriting
  obtain ⟨call, stage, durable⟩ := p
  cases call with
  | fund => cases hpay
  | checkIn => exact .inl ⟨rfl, rfl⟩
  | refund => cases hpay
  | confirm => exact .inr ⟨rfl, rfl⟩

/-- What is owed after call `i` became `q`, for a link it does not carry itself. -/
theorem owes_move {s s' : State} {i : Nat} {p q : Process} (hp : s.call? i = some p)
    (hcalls : s'.calls = (s.move i q).calls) {id : String}
    {l : Option BookingStatus × BookingStatus}
    (hold : p.writing = true → p.op.id = id → p.op.link ≠ l)
    (hnew : q.writing = true → q.op.id = id → q.op.link ≠ l) : s'.Owes id l ↔ s.Owes id l := by
  constructor
  · rintro ⟨j, r, hr, hw, hid, hl⟩
    rcases call?_of_move hp hcalls hr with ⟨rfl, rfl⟩ | ⟨-, hr⟩
    · exact absurd hl (hnew hw hid)
    · exact ⟨j, r, hr, hw, hid, hl⟩
  · rintro ⟨j, r, hr, hw, hid, hl⟩
    have hji : i ≠ j := by
      rintro rfl
      obtain rfl : p = r := by simpa [hp] using hr
      exact hold hw hid hl
    refine ⟨j, r, ?_, hw, hid, hl⟩
    rw [State.call?, hcalls]
    exact (call?_move_ne hji).trans hr

section Preservation

variable {R : Runtime} {network : String} {s s' : State} {a : Action} (h : Logged s)
include h

/-- A step that writes no history, moves no row, and changes nothing owed. -/
theorem Logged.quiet (hstep : step R network s a = some s') (hdb : s'.db = s.db)
    (howes : ∀ id l, s'.Owes id l ↔ s.Owes id l) : Logged s' := by
  refine ⟨coherent_step s a s' h.coherent hstep, fun id row hrow => ?_, ?_⟩
  · rw [hdb] at hrow ⊢
    obtain ⟨owed, hchain, howed⟩ := h.links id row hrow
    exact ⟨owed, hchain, fun l => (howed l).trans (howes id l).symm⟩
  · rw [hdb]
    exact h.known

/-- A booking whose status says that neither `checkIn` nor `confirm` has moved it is owed no
    link. -/
theorem Logged.nothing_owed {id : String} {row : BookingRow}
    (hrow : s.db.bookings.lookup id = some row)
    (hstatus : row.status = .pendingFunding ∨ row.status = .funded) :
    chain row.status = (historyOf s.db id).map BookingStatusHistory.link ∧
      ∀ l, ¬ s.Owes id l := by
  obtain ⟨owed, hchain, howed⟩ := h.links id row hrow
  have hnone : ∀ l, l ∉ owed := by
    intro l hl
    obtain ⟨i, p, -, hw, -, rfl⟩ := (howed l).mp hl
    have hmem : p.op.link ∈ chain row.status := hchain ▸ List.mem_append_right _ hl
    rcases hstatus with hs | hs <;> rw [hs] at hmem <;>
      rcases goal_of_writing hw with ⟨-, hlink⟩ | ⟨-, hlink⟩ <;> rw [hlink] at hmem <;>
      exact absurd hmem (by decide)
  obtain rfl : owed = [] := List.eq_nil_iff_forall_not_mem.mpr hnone
  exact ⟨hchain.trans (List.append_nil _), fun l hl => hnone l ((howed l).mpr hl)⟩

/-- The status of a booking is written, its link is owed. -/
theorem Logged.update {i : Nat} {p : Process} {b : Booking} {row : BookingRow}
    (hp : s.call? i = some p) (hstage : p.stage = .checked b) (hpay : p.op.payment = none)
    (hrow : s.db.bookings.lookup p.op.id = some row) (hadmits : p.op.admits row = true)
    (hstep : step R network s a = some s')
    (hdb : s'.db = { s.db with bookings := s.db.bookings.insert p.op.id (p.op.apply row) })
    (hcalls : s'.calls = (s.move i { p with stage := .updated b, durable := true }).calls) :
    Logged s' := by
  have hidle : p.writing = false := by simp [Process.writing, hstage]
  have hhistory : ∀ id, historyOf s'.db id = historyOf s.db id := by
    intro id
    rw [historyOf, hdb]
    rfl
  have hrows : s'.db.bookings = s.db.bookings.insert p.op.id (p.op.apply row) := by rw [hdb]
  refine ⟨coherent_step s a s' h.coherent hstep, fun id x hx => ?_, ?_⟩
  · rw [hhistory]
    rw [hrows] at hx
    rcases lookup_of_insert hx with ⟨rfl, rfl⟩ | ⟨hid, hold⟩
    · obtain ⟨owed, hchain, howed⟩ := h.links _ row hrow
      refine ⟨owed ++ [p.op.link], ?_, fun l => ?_⟩
      · rw [← List.append_assoc, ← hchain, (admits_iff.mp hadmits).1]
        exact chain_target p.call
      · rw [List.mem_append, List.mem_singleton, howed]
        by_cases hl : l = p.op.link
        · subst hl
          refine iff_of_true (.inr rfl)
            ⟨i, { p with stage := .updated b, durable := true }, ?_, ?_, rfl, rfl⟩
          · rw [State.call?, hcalls]
            exact call?_move_self hp
          · exact writing_iff.mpr ⟨hpay, b, rfl⟩
        · rw [owes_move hp hcalls (fun hw => by rw [hidle] at hw; cases hw)
            (fun _ _ hne => hl hne.symm)]
          simp [hl]
    · obtain ⟨owed, hchain, howed⟩ := h.links id x hold
      refine ⟨owed, hchain, fun l => (howed l).trans (owes_move hp hcalls ?_ ?_).symm⟩
      · intro hw
        rw [hidle] at hw
        cases hw
      · intro _ hpid
        exact absurd hpid.symm hid
  · intro x hx
    have hx' : x ∈ s.db.history := by
      rw [hdb] at hx
      exact hx
    obtain ⟨y, hy⟩ := h.known x hx'
    obtain ⟨y', hy', -⟩ := terms_step h.coherent hstep hy
    exact ⟨y', hy'⟩

/-- A call that owed its link writes it, after every link before it was written. -/
theorem Logged.record {i : Nat} {p : Process} {b : Booking} (hp : s.call? i = some p)
    (hstage : p.stage = .updated b) (hpay : p.op.payment = none)
    (hfirst : p.call.goal = .settlement → ∀ j q, s.call? j = some q → q.writing = true →
      q.op.id = p.op.id → q.call.goal ≠ .presence)
    (hstep : step R network s a = some s')
    (hdb : s'.db = s.db.insertHistory (p.op.historyRow b))
    (hcalls : s'.calls = (s.move i { p with stage := .written }).calls) : Logged s' := by
  have hwriting : p.writing = true := writing_iff.mpr ⟨hpay, b, hstage⟩
  obtain ⟨row, hrow, -⟩ := h.coherent.moved i p hp (h.coherent.durable_of_writing hp hwriting)
  have hrows : s'.db.bookings = s.db.bookings := by
    rw [hdb]
    rfl
  have hhistory : s'.db.history = s.db.history ++ [p.op.historyRow b] := by
    rw [hdb]
    rfl
  have hbooking : (p.op.historyRow b).bookingId = p.op.id := rfl
  refine ⟨coherent_step s a s' h.coherent hstep, fun id x hx => ?_, ?_⟩
  · rw [hrows] at hx
    rw [historyOf_of_concat hhistory, hbooking]
    by_cases hid : id = p.op.id
    · subst hid
      obtain ⟨owed, hchain, howed⟩ := h.links _ x hx
      have hmem : p.op.link ∈ owed := (howed _).mpr ⟨i, p, hp, hwriting, rfl, rfl⟩
      -- the call's own link is the next one of the chain
      obtain ⟨rest, rfl⟩ : ∃ rest, owed = p.op.link :: rest := by
        obtain ⟨l, rest, rfl⟩ := List.exists_cons_of_ne_nil (List.ne_nil_of_mem hmem)
        obtain ⟨j, q, hq, hw, hqid, rfl⟩ := (howed l).mp List.mem_cons_self
        have hlast := completion_last x.status
        rw [hchain] at hlast
        refine ⟨rest, congrArg (· :: rest) ?_⟩
        rcases goal_of_writing hwriting with ⟨hpg, hpl⟩ | ⟨hpg, hpl⟩ <;>
          rcases goal_of_writing hw with ⟨hqg, hql⟩ | ⟨hqg, hql⟩
        · rw [hql, hpl]
        · -- a completion is the last link, yet the arrival comes after it
          rw [hql, hpl] at hmem
          have hrest := (List.mem_cons.mp hmem).resolve_left (by decide)
          have hpair := (List.pairwise_append.mp hlast).2.1
          exact absurd hql ((List.pairwise_cons.mp hpair).1 _ hrest)
        · exact absurd hqg (hfirst hpg j q hq hw hqid)
        · rw [hql, hpl]
      have hnodup := chain_nodup x.status
      rw [hchain] at hnodup
      refine ⟨rest, ?_, fun l => ?_⟩
      · rw [if_pos rfl, List.map_append, List.append_assoc]
        exact hchain
      · have hrest : p.op.link ∉ rest :=
          (List.nodup_cons.mp (List.Nodup.of_append_right hnodup)).1
        by_cases hl : l = p.op.link
        · subst hl
          refine iff_of_false hrest ?_
          rintro ⟨j, q, hq, hw, hqid, hql⟩
          rcases call?_of_move hp hcalls hq with ⟨rfl, rfl⟩ | ⟨hj, hq⟩
          · simp [Process.writing] at hw
          · -- no other call makes the same move
            exact hj (h.coherent.once j i q p hq hp (h.coherent.durable_of_writing hq hw)
              (h.coherent.durable_of_writing hp hwriting) hqid (congrArg Prod.snd hql))
        · rw [owes_move hp hcalls (fun _ _ hne => hl hne.symm)
            (fun hw => by simp [Process.writing] at hw), ← howed]
          simp [hl]
    · rw [if_neg (Ne.symm hid), List.append_nil]
      obtain ⟨owed, hchain, howed⟩ := h.links id x hx
      refine ⟨owed, hchain, fun l => (howed l).trans ?_⟩
      refine (owes_move hp hcalls ?_ ?_).symm
      · intro _ hpid
        exact absurd hpid.symm hid
      · intro hw
        simp [Process.writing] at hw
  · intro x hx
    rw [hrows]
    rw [hhistory, List.mem_append, List.mem_singleton] at hx
    rcases hx with hx | rfl
    · exact h.known x hx
    · exact ⟨row, hrow⟩

/-- Status and link are written together, and nothing was owed before. -/
theorem Logged.committed {i : Nat} {p : Process} {b : Booking} {kind : TransactionKind}
    {v : Verification} {missing : String} (hp : s.call? i = some p) (hstage : p.stage = .logged b)
    (hpay : p.op.payment = some ⟨kind, some v, missing⟩)
    (hstep : step R network s a = some s') (hdb : s'.db = p.op.commit b kind v s.db)
    (hcalls : s'.calls = (s.move i { p with stage := .written, durable := true }).calls) :
    Logged s' := by
  have hidle : p.writing = false := by simp [Process.writing, hstage]
  obtain ⟨-, row, hrow, hadmits⟩ := h.coherent.committing hp hstage hpay
  have hrows : s'.db.bookings = s.db.bookings.insert p.op.id (p.op.apply row) := by
    rw [hdb]
    exact commit_bookings hrow hadmits
  have hhistory : s'.db.history = s.db.history ++ [p.op.historyRow b] := by
    rw [hdb]
    exact commit_history
  have hbooking : (p.op.historyRow b).bookingId = p.op.id := rfl
  have howes : ∀ id l, s'.Owes id l ↔ s.Owes id l := by
    intro id l
    refine owes_move hp hcalls ?_ ?_
    · intro hw
      rw [hidle] at hw
      cases hw
    · intro hw
      simp [Process.writing] at hw
  refine ⟨coherent_step s a s' h.coherent hstep, fun id x hx => ?_, ?_⟩
  · rw [hrows] at hx
    rw [historyOf_of_concat hhistory, hbooking]
    rcases lookup_of_insert hx with ⟨rfl, rfl⟩ | ⟨hid, hold⟩
    · have hsource : row.status = p.op.source := (admits_iff.mp hadmits).1
      have htransactional : p.op.source = .pendingFunding ∨ p.op.source = .funded := by
        obtain ⟨call, stage, durable⟩ := p
        cases call with
        | fund => exact .inl rfl
        | checkIn => cases hpay
        | refund => exact .inr rfl
        | confirm => cases hpay
      obtain ⟨hchain, hnothing⟩ := h.nothing_owed hrow (hsource ▸ htransactional)
      refine ⟨[], ?_, fun l => ?_⟩
      · rw [if_pos rfl, List.map_append, List.append_nil]
        refine (chain_target p.call).trans ?_
        rw [show p.call.op.source = row.status from hsource.symm, hchain]
        rfl
      · rw [howes]
        exact iff_of_false List.not_mem_nil (hnothing l)
    · rw [if_neg (Ne.symm hid), List.append_nil]
      obtain ⟨owed, hchain, howed⟩ := h.links id x hold
      exact ⟨owed, hchain, fun l => (howed l).trans (howes id l).symm⟩
  · intro x hx
    have hknown : ∃ y, s.db.bookings.lookup x.bookingId = some y := by
      rw [hhistory, List.mem_append, List.mem_singleton] at hx
      rcases hx with hx | rfl
      · exact h.known x hx
      · exact ⟨row, hrow⟩
    obtain ⟨y, hy⟩ := hknown
    obtain ⟨y', hy', -⟩ := terms_step h.coherent hstep hy
    exact ⟨y', hy'⟩

/-- A new booking has its first link. -/
theorem Logged.created {uuid : String} {input : CreateBooking} {row : BookingRow}
    (hrow : Created R s.db uuid input s'.db row) (hstep : step R network s a = some s')
    (hcalls : s'.calls = s.calls) : Logged s' := by
  have howes : ∀ id l, s'.Owes id l ↔ s.Owes id l := by
    intro id l
    simp only [State.Owes, State.call?, hcalls]
  refine ⟨coherent_step s a s' h.coherent hstep, fun id x hx => ?_, ?_⟩
  · rw [historyOf_of_concat hrow.history]
    rcases hrow.lookup_cases hx with ⟨rfl, rfl⟩ | hold
    · -- nothing was ever written for an id that was not in use
      have hempty : historyOf s.db x.id = [] := by
        refine List.filter_eq_nil_iff.mpr fun y hy => ?_
        obtain ⟨z, hz⟩ := h.known y hy
        simp only [decide_eq_true_eq]
        intro hid
        rw [hid, hrow.fresh] at hz
        cases hz
      refine ⟨[], ?_, fun l => ?_⟩
      · rw [hempty, hrow.status]
        simp [chain, path, BookingStatusHistory.link]
      · rw [howes]
        refine iff_of_false List.not_mem_nil ?_
        rintro ⟨i, p, hp, hw, hid, -⟩
        obtain ⟨z, hz, -⟩ := h.coherent.moved i p hp (h.coherent.durable_of_writing hp hw)
        rw [hid, hrow.fresh] at hz
        cases hz
    · have hid : row.id ≠ id := by
        rintro rfl
        rw [hrow.fresh] at hold
        cases hold
      obtain ⟨owed, hchain, howed⟩ := h.links id x hold
      refine ⟨owed, ?_, fun l => (howed l).trans (howes id l).symm⟩
      rw [if_neg hid, List.append_nil]
      exact hchain
  · intro x hx
    rw [hrow.history, List.mem_append, List.mem_singleton] at hx
    rcases hx with hx | rfl
    · obtain ⟨y, hy⟩ := h.known x hx
      exact ⟨y, hrow.lookup_keep hy⟩
    · exact ⟨row, by rw [hrow.bookings]; exact AList.lookup_insert _⟩

end Preservation

/-- An undisturbed step keeps the history complete but for what is owed. -/
theorem logged_step {R : Runtime} {network : String} (s : State) (a : Action) (s' : State)
    (h : Logged s) (hcalm : Undisturbed s a) (hstep : step R network s a = some s') :
    Logged s' := by
  cases moves_of_step hstep with
  | rejected => exact h
  | create now uuid input db row hrow => exact h.created hrow hstep rfl
  | call c =>
    refine h.quiet hstep rfl fun id l => ?_
    constructor
    · rintro ⟨j, q, hq, hw, hid, hl⟩
      rcases call?_of_append rfl hq with hq | rfl
      · exact ⟨j, q, hq, hw, hid, hl⟩
      · rw [enter_writing] at hw
        cases hw
    · rintro ⟨j, q, hq, hw, hid, hl⟩
      obtain ⟨hj, -⟩ := List.getElem?_eq_some_iff.mp hq
      refine ⟨j, q, ?_, hw, hid, hl⟩
      rw [State.call?, List.getElem?_append_left hj]
      exact hq
  | others => exact ⟨coherent_step s _ _ h.coherent hstep, h.links, h.known⟩
  | quiet _ i p stage hmover hp hq =>
    have hidle : p.writing = false := by
      cases hq with
      | read b row hstage => simp [Process.writing, hstage]
      | opened b row hstage => simp [Process.writing, hstage]
      | paid b hstage hpay => simp [Process.writing, Option.isSome_iff_ne_none.mp hpay]
      | logged b hstage => simp [Process.writing, hstage]
      | returned b hstage => simp [Process.writing, hstage]
      | threw e hflight hcause =>
        rcases hcause with rfl | hidle
        · exact hcalm p hp
        · exact hidle
      | stopped hflight hcause =>
        subst hcause
        exact hcalm p hp
    refine h.quiet hstep rfl fun id l => owes_move hp rfl ?_ ?_
    · intro hw
      rw [hidle] at hw
      cases hw
    · intro hw
      obtain ⟨hpay, b, hb⟩ := writing_iff.mp hw
      cases hq with
      | opened b' row hstage hsome =>
        rw [show p.op.payment = none from hpay] at hsome
        cases hsome
      | _ => cases hb
  | update i p b row hp hstage hpay hfree hrow hadmits =>
    exact h.update hp hstage hpay hrow hadmits hstep rfl rfl
  | record i p b hp hstage hpay =>
    refine h.record hp hstage hpay ?_ hstep rfl rfl
    intro hgoal j q hq
    exact hcalm p hp (writing_iff.mpr ⟨hpay, b, hstage⟩) hgoal q (List.mem_of_getElem? hq)
  | commit i p b kind v missing hp hstage hpay => exact h.committed hp hstage hpay hstep rfl rfl

/-- **The status history as an audit chain.** In every run whose steps are undisturbed, in
    every state reached with no call in flight, the history of each booking is the complete
    chain up to its status. -/
theorem audit_chain_of_undisturbed (R : Runtime) (network : String) (s₀ s : State)
    (as : List Action) (h₀ : Fresh s₀) (hrun : (machine R network).exec s₀ as = some s)
    (hcalm : (machine R network).Along Undisturbed s₀ as) (hquiet : s.Quiescent) (id : String)
    (row : BookingRow) (hrow : s.db.bookings.lookup id = some row) :
    AuditChain row (historyOf s.db id) := by
  have h : Logged s :=
    (machine R network).exec_invariant_along logged_step hrun hcalm (logged_of_fresh h₀)
  obtain ⟨owed, hchain, howed⟩ := h.links id row hrow
  obtain rfl : owed = [] := List.eq_nil_iff_forall_not_mem.mpr fun l hl =>
    hquiet.owes_nothing id l ((howed l).mp hl)
  rw [List.append_nil] at hchain
  exact auditChain_of_links (h.coherent.lifecycle id row hrow) (h.coherent.version id row hrow)
    hchain.symm

/-- The renter books, funds and checks in, each call to its end. -/
def checkedInRun : List Action :=
  bookSlot :: fundSlot 0 ++ checkInSlot 1 ++ [.advance 1, .advance 1]

theorem audit_chain_of_undisturbed_checked_in :
    ∃ s row, (machine sampleRuntime "TESTNET").exec listed checkedInRun = some s ∧
      s.db.bookings.lookup "3b241101-e2bb-4255-8caf-4136c566a962" = some row ∧
      row.status = .checkedIn ∧
      AuditChain row (historyOf s.db "3b241101-e2bb-4255-8caf-4136c566a962") := by
  obtain ⟨s, row, hrun, hrow, hstatus, hcalls⟩ : ∃ s row,
      (machine sampleRuntime "TESTNET").exec listed checkedInRun = some s ∧
      s.db.bookings.lookup "3b241101-e2bb-4255-8caf-4136c566a962" = some row ∧
      row.status = .checkedIn ∧ s.calls.all (fun p => !p.stage.inFlight) = true :=
    ⟨_, _, rfl, rfl, rfl, rfl⟩
  have hquiet : s.Quiescent := quiescent_of_all hcalls
  exact ⟨s, row, hrun, hrow, hstatus, audit_chain_of_undisturbed sampleRuntime "TESTNET" listed s
    checkedInRun fresh_listed hrun (by decide +kernel) hquiet _ row hrow⟩

/-- The instance that checks the renter in goes down between its two statements. -/
def stoppedRun : List Action :=
  bookSlot :: fundSlot 0 ++ checkInSlot 1 ++ [.stop 1]

/-- After `stoppedRun` no call is in flight, the booking is checked in, and its history ends
    with its funding. -/
theorem audit_chain_broken :
    ∃ s row, (machine sampleRuntime "TESTNET").exec listed stoppedRun = some s ∧ s.Quiescent ∧
      s.db.bookings.lookup "3b241101-e2bb-4255-8caf-4136c566a962" = some row ∧
      row.status = .checkedIn ∧ row.version = 2 ∧
      (historyOf s.db "3b241101-e2bb-4255-8caf-4136c566a962").map BookingStatusHistory.link =
        [(none, .pendingFunding), (some .pendingFunding, .funded)] ∧
      ¬ AuditChain row (historyOf s.db "3b241101-e2bb-4255-8caf-4136c566a962") := by
  obtain ⟨s, row, hrun, hcalls, hrow, hstatus, hversion, hlinks⟩ : ∃ s row,
      (machine sampleRuntime "TESTNET").exec listed stoppedRun = some s ∧
      s.calls.all (fun p => !p.stage.inFlight) = true ∧
      s.db.bookings.lookup "3b241101-e2bb-4255-8caf-4136c566a962" = some row ∧
      row.status = .checkedIn ∧ row.version = 2 ∧
      (historyOf s.db "3b241101-e2bb-4255-8caf-4136c566a962").map BookingStatusHistory.link =
        [(none, .pendingFunding), (some .pendingFunding, .funded)] :=
    ⟨_, _, rfl, rfl, rfl, rfl, rfl, rfl⟩
  refine ⟨s, row, hrun, quiescent_of_all hcalls, hrow, hstatus, hversion, hlinks, fun h => ?_⟩
  have hcount := h.count
  rw [hversion, ← List.length_map BookingStatusHistory.link, hlinks] at hcount
  cases hcount

end Workflow

end PovDeposit.Api
