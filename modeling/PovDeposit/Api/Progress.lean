/-
  The calls of the workflow come to rest.

  A call waits in two places: its conditional update waits for an open transaction on the
  same row, and its payment row waits for an open transaction with the same hash. Whoever is
  waited for has fewer statements left (`Process.waits`), so the waiting calls cannot close a
  cycle. `remaining` counts the statements a call has left and `work` adds them up: a run
  executes at most six statements for each call that arrives, and from every state of a run
  the calls in flight can all be answered.
-/
import PovDeposit.Api.Payments
import PovDeposit.Api.History
import PovDeposit.Lib.Progress

namespace PovDeposit.Api.Workflow

open PovDeposit.Lib

/-! ## What is left to do -/

/-- The statements a call has left at most. -/
def Stage.remaining : Stage → Nat
  | .entered => 6
  | .checked _ => 5
  | .updated _ => 4
  | .paid _ => 3
  | .logged _ => 2
  | .written => 1
  | .returned _ | .threw _ | .stopped => 0

def State.work (s : State) : Nat := (s.calls.map fun p => p.stage.remaining).sum

/-- Whether the action is the arrival of a call. -/
def Action.arrives : Action → Bool
  | .call _ => true
  | _ => false

theorem remaining_pos {stage : Stage} : 0 < stage.remaining ↔ stage.inFlight = true := by
  cases stage <;> simp [Stage.remaining, Stage.inFlight]

theorem remaining_of_hasUpdated {stage : Stage} (h : stage.hasUpdated = true) :
    stage.inFlight = true ∧ stage.remaining ≤ 4 := by
  cases stage <;> simp_all [Stage.remaining, Stage.inFlight, Stage.hasUpdated]

theorem remaining_of_hasPaid {stage : Stage} (h : stage.hasPaid = true) :
    stage.inFlight = true ∧ stage.remaining ≤ 3 := by
  cases stage <;> simp_all [Stage.remaining, Stage.inFlight, Stage.hasPaid]

theorem Quiet.remaining_lt {s : State} {a : Action} {i : Nat} {p : Process} {stage : Stage}
    (h : Quiet s a i p stage) : stage.remaining < p.stage.remaining := by
  cases h with
  | read b row hstage => simp [hstage, Stage.remaining]
  | opened b row hstage => simp [hstage, Stage.remaining]
  | paid b hstage => simp [hstage, Stage.remaining]
  | logged b hstage => simp [hstage, Stage.remaining]
  | returned b hstage => simp [hstage, Stage.remaining]
  | threw e hflight => exact remaining_pos.mpr hflight
  | stopped hflight => exact remaining_pos.mpr hflight

theorem work_move {s s' : State} {i : Nat} {p p' : Process} (hp : s.call? i = some p)
    (hcalls : s'.calls = (s.move i p').calls) (hlt : p'.stage.remaining < p.stage.remaining) :
    1 + s'.work ≤ s.work := by
  have hsum : ((s.calls.set i p').map fun q => q.stage.remaining).sum + p.stage.remaining =
      (s.calls.map fun q => q.stage.remaining).sum + p'.stage.remaining :=
    sum_map_set (fun q => q.stage.remaining) hp
  have hset : s'.calls = s.calls.set i p' := hcalls
  unfold State.work
  rw [hset]
  omega

/-- A statement lowers the work left, an arrival raises it by six. -/
theorem work_step {R : Runtime} {network : String} {s s' : State} {a : Action}
    (hstep : step R network s a = some s') :
    (if a.mover.isSome then 1 else 0) + s'.work ≤ s.work + if a.arrives then 6 else 0 := by
  cases moves_of_step hstep with
  | rejected => exact Nat.le_of_eq (Nat.add_comm _ _)
  | create => exact Nat.le_of_eq (Nat.add_comm _ _)
  | others => exact Nat.le_of_eq (Nat.add_comm _ _)
  | call c =>
    have hnew : (c.enter R).stage.remaining ≤ 6 := by
      rcases enter_cases R c with ⟨_, -, h⟩ | ⟨-, _, h⟩ <;> simp [h, Stage.remaining]
    simpa [State.work, Action.mover, Action.arrives] using hnew
  | quiet _ i p stage hmover hp hq =>
    have hwork : 1 + (s.move i { p with stage := stage }).work ≤ s.work :=
      work_move hp rfl hq.remaining_lt
    simp only [hmover, Option.isSome_some, if_true]
    omega
  | update i p b row hp hstage =>
    exact Nat.le_add_right_of_le (work_move hp rfl (by simp [hstage, Stage.remaining]))
  | record i p b hp hstage =>
    exact Nat.le_add_right_of_le (work_move hp rfl (by simp [hstage, Stage.remaining]))
  | commit i p b kind v missing hp hstage =>
    exact Nat.le_add_right_of_le (work_move hp rfl (by simp [hstage, Stage.remaining]))

/-! ## Who waits for whom -/

/-- What a call knows once it has passed its checks: a payment it is to write has its
    metadata, and only a call with a payment gets as far as writing one. -/
structure Process.Ready (p : Process) : Prop where
  verified : ∀ b, p.stage.snapshot = some b → ∀ pay ∈ p.op.payment, ∃ v,
    pay = ⟨pay.kind, some v, pay.missing⟩
  paying : p.stage.hasPaid = true → p.op.payment.isSome

theorem Process.ready_of_idle {p : Process} (hsnapshot : p.stage.snapshot = none)
    (hpaid : p.stage.hasPaid = false) : p.Ready := by
  refine ⟨fun b hb => ?_, fun h => ?_⟩
  · rw [hsnapshot] at hb
    cases hb
  · rw [hpaid] at h
    cases h

def Ready (s : State) : Prop := ∀ i p, s.call? i = some p → p.Ready

theorem Quiet.ready {s : State} {a : Action} {i : Nat} {p : Process} {stage : Stage}
    (hq : Quiet s a i p stage) (h : p.Ready) : Process.Ready { p with stage := stage } := by
  cases hq with
  | read b row hstage hrow hb hcheck =>
    refine ⟨fun _ _ => (check_eq_ok hcheck).2.2.2, fun hpaid => ?_⟩
    cases hpaid
  | opened b row hstage =>
    refine ⟨fun _ _ => h.verified b (by rw [hstage]; rfl), fun hpaid => ?_⟩
    cases hpaid
  | paid b hstage hpay =>
    exact ⟨fun _ _ => h.verified b (by rw [hstage]; rfl), fun _ => hpay⟩
  | logged b hstage =>
    exact ⟨fun _ _ => h.verified b (by rw [hstage]; rfl), fun _ => h.paying (by rw [hstage]; rfl)⟩
  | returned b => exact Process.ready_of_idle rfl rfl
  | threw e => exact Process.ready_of_idle rfl rfl
  | stopped => exact Process.ready_of_idle rfl rfl

theorem ready_move {s s' : State} {i : Nat} {p p' : Process} (h : Ready s)
    (hp : s.call? i = some p) (hcalls : s'.calls = (s.move i p').calls) (hp' : p'.Ready) :
    Ready s' := by
  intro j q hq
  rcases call?_of_move hp hcalls hq with ⟨-, rfl⟩ | ⟨-, hold⟩
  · exact hp'
  · exact h j q hold

theorem ready_step {R : Runtime} {network : String} (s : State) (a : Action) (s' : State)
    (h : Ready s) (hstep : step R network s a = some s') : Ready s' := by
  cases moves_of_step hstep with
  | rejected => exact h
  | create => exact h
  | others => exact h
  | call c =>
    intro j q hq
    rcases call?_of_append rfl hq with hold | rfl
    · exact h j q hold
    · exact Process.ready_of_idle enter_snapshot enter_hasPaid
  | quiet _ i p stage hmover hp hq => exact ready_move h hp rfl (hq.ready (h i p hp))
  | update i p b row hp hstage hpay =>
    refine ready_move h hp rfl ⟨fun _ _ => ?_, fun hpaid => ?_⟩
    · exact (h i p hp).verified b (by rw [hstage]; rfl)
    · cases hpaid
  | record i p b hp => exact ready_move h hp rfl (Process.ready_of_idle rfl rfl)
  | commit i p b kind v missing hp => exact ready_move h hp rfl (Process.ready_of_idle rfl rfl)

theorem ready_of_exec {R : Runtime} {network : String} {s₀ s : State} {as : List Action}
    (h₀ : Fresh s₀) (hrun : (machine R network).exec s₀ as = some s) : Ready s := by
  refine (machine R network).exec_invariant ready_step hrun fun i p hp => ?_
  rw [State.call?, h₀.calls] at hp
  cases hp

/-- A call in flight can go on, or waits for a call in flight that has less left to do. -/
theorem Ready.waits {s : State} (h : Ready s) {i : Nat} {p : Process} (hp : s.call? i = some p)
    (hflight : p.stage.inFlight = true) :
    (advance s i p).isSome ∨ ∃ j q, s.call? j = some q ∧ q.stage.inFlight = true ∧
      q.stage.remaining < p.stage.remaining := by
  cases hstage : p.stage with
  | entered =>
    left
    unfold advance
    rw [hstage]
    cases p.op.readAndCheck s.db <;> rfl
  | checked b =>
    by_cases hlocked : s.rowLocked p.op.id = true
    · right
      obtain ⟨q, hmem, hholds⟩ := List.any_eq_true.mp hlocked
      obtain ⟨j, hq⟩ := List.mem_iff_getElem?.mp hmem
      obtain ⟨hin, hle⟩ := remaining_of_hasUpdated (holdsRow_iff.mp hholds).2.2
      exact ⟨j, q, hq, hin, Nat.lt_succ_of_le hle⟩
    · left
      unfold advance
      rw [hstage]
      simp only [if_neg hlocked]
      split
      · rfl
      · split <;> rfl
  | updated b =>
    cases hpay : p.op.payment with
    | none =>
      left
      unfold advance
      rw [hstage, hpay]
      rfl
    | some pay =>
      obtain ⟨v, hv⟩ := (h i p hp).verified b (by rw [hstage]; rfl) pay hpay
      by_cases htaken : s.hashTaken p.op.hash = true
      · right
        obtain ⟨q, hmem, hholds⟩ := List.any_eq_true.mp htaken
        obtain ⟨j, hq⟩ := List.mem_iff_getElem?.mp hmem
        obtain ⟨hin, hle⟩ := remaining_of_hasPaid (holdsHash_iff.mp hholds).2.2
        exact ⟨j, q, hq, hin, Nat.lt_succ_of_le hle⟩
      · left
        unfold advance
        rw [hstage, hpay, hv]
        simp only [if_neg htaken]
        split <;> rfl
  | paid b =>
    left
    unfold advance
    rw [hstage]
    rfl
  | logged b =>
    left
    -- a call that has written its payment has one, with its metadata
    obtain ⟨pay, hpay⟩ := Option.isSome_iff_exists.mp ((h i p hp).paying (by rw [hstage]; rfl))
    obtain ⟨v, hv⟩ := (h i p hp).verified b (by rw [hstage]; rfl) pay hpay
    unfold advance
    rw [hstage, hpay, hv]
    rfl
  | written =>
    left
    unfold advance
    rw [hstage]
    cases findUnique s.db p.op.id <;> rfl
  | returned b => rw [hstage] at hflight; cases hflight
  | threw e => rw [hstage] at hflight; cases hflight
  | stopped => rw [hstage] at hflight; cases hflight

/-- While calls are in flight, one of them can go on. -/
theorem Ready.exists_advance (R : Runtime) (network : String) {s : State} (h : Ready s) {i : Nat}
    {p : Process} (hp : s.call? i = some p) (hflight : p.stage.inFlight = true) :
    ∃ j q t, s.call? j = some q ∧ q.stage.inFlight = true ∧
      step R network s (.advance j) = some t := by
  let busy (x : Nat × Process) : Prop := s.call? x.1 = some x.2 ∧ x.2.stage.inFlight = true
  let enabled (x : Nat × Process) : Prop := (advance s x.1 x.2).isSome = true
  have hwait : ∀ x, busy x →
      enabled x ∨ ∃ y, busy y ∧ y.2.stage.remaining < x.2.stage.remaining := by
    rintro ⟨j, q⟩ ⟨hq, hin⟩
    rcases h.waits hq hin with hen | ⟨k, r, hr, hrf, hlt⟩
    · exact .inl hen
    · exact .inr ⟨(k, r), ⟨hr, hrf⟩, hlt⟩
  have hbusy : busy (i, p) := ⟨hp, hflight⟩
  obtain ⟨⟨j, q⟩, ⟨hq, hin⟩, hen⟩ :=
    exists_enabled_of_waits (fun x : Nat × Process => x.2.stage.remaining) hwait hbusy
  obtain ⟨t, ht⟩ := Option.isSome_iff_exists.mp hen
  exact ⟨j, q, t, hq, hin, Option.bind_eq_some_iff.mpr ⟨q, hq, ht⟩⟩

/-! ## Coming to rest -/

/-- Its action is the next statement of some call. -/
def Action.IsStatement (a : Action) : Prop := ∃ i, a = .advance i

theorem work_drop {R : Runtime} {network : String} (s : State) (a : Action) (s' : State)
    (ha : a.IsStatement) (hstep : step R network s a = some s') : s'.work < s.work := by
  obtain ⟨i, rfl⟩ := ha
  have hwork : 1 + s'.work ≤ s.work + 0 := work_step hstep
  omega

/-- A statement ends no call without an answer. -/
theorem not_stopped_step (R : Runtime) (network : String) {s s' : State} {i j : Nat} {p : Process}
    (hstep : step R network s (.advance j) = some s') (hp : s.call? i = some p)
    (hgoing : p.stage ≠ .stopped) :
    ∃ q, s'.call? i = some q ∧ q.call = p.call ∧ q.stage ≠ .stopped := by
  obtain ⟨q, hq, hcall, -⟩ := call_step hstep hp
  refine ⟨q, hq, hcall, fun hstopped => ?_⟩
  -- the call that moved is now where `q'` is
  have hmove : ∀ (t : State) k p' q', s.call? k = some p' → t.calls = (s.move k q').calls →
      t.call? i = some q → q'.stage ≠ .stopped → False := by
    intro t k p' q' hp' hcalls hq hne
    rcases call?_of_move hp' hcalls hq with ⟨-, rfl⟩ | ⟨-, hold⟩
    · exact hne hstopped
    · obtain rfl : p = q := by simpa [hp] using hold
      exact hgoing hstopped
  cases moves_of_step hstep with
  | quiet _ k p' stage hmover hp' hquiet =>
    refine hmove _ k p' _ hp' rfl hq ?_
    cases hquiet with
    | stopped hflight hcause => cases hcause
    | _ => simp
  | update _ p' b row hp' => exact hmove _ j p' _ hp' rfl hq (by simp)
  | record _ p' b hp' => exact hmove _ j p' _ hp' rfl hq (by simp)
  | commit _ p' b kind v missing hp' => exact hmove _ j p' _ hp' rfl hq (by simp)

theorem not_stopped_exec {R : Runtime} {network : String} {s t : State} {bs : List Action} {i : Nat}
    {p : Process} (hbs : ∀ a ∈ bs, a.IsStatement)
    (hrun : (machine R network).exec s bs = some t) (hp : s.call? i = some p)
    (hgoing : p.stage ≠ .stopped) :
    ∃ q, t.call? i = some q ∧ q.call = p.call ∧ q.stage ≠ .stopped := by
  refine (machine R network).exec_invariant_along
    (I := fun u => ∃ q, u.call? i = some q ∧ q.call = p.call ∧ q.stage ≠ .stopped)
    (P := fun _ a => a.IsStatement) ?_ hrun ((machine R network).along_of_forall s hbs)
    ⟨p, hp, rfl, hgoing⟩
  rintro u a u' ⟨q, hq, hcall, hne⟩ ⟨j, rfl⟩ hstep
  obtain ⟨q', hq', hcall', hne'⟩ := not_stopped_step R network hstep hq hne
  exact ⟨q', hq', hcall'.trans hcall, hne'⟩

/-- In `t` all the calls of `s` have their answers, and nothing is locked. -/
structure Answered (s t : State) : Prop where
  quiescent : t.Quiescent
  rows : ∀ id, t.rowLocked id = false
  hashes : ∀ hash, t.hashTaken hash = false
  calls : ∀ i p, s.call? i = some p → p.stage ≠ .stopped → ∃ q, t.call? i = some q ∧
    q.call = p.call ∧ ((∃ b, q.stage = .returned b) ∨ ∃ e, q.stage = .threw e)

theorem Ready.answered {R : Runtime} {network : String} {s t : State} {bs : List Action}
    (h : Ready s) (hbs : ∀ a ∈ bs, a.IsStatement)
    (hrun : (machine R network).exec s bs = some t)
    (hrest : (machine R network).AtRest Action.IsStatement t) : Answered s t := by
  have ht : Ready t := (machine R network).exec_invariant ready_step hrun h
  have hquiescent : t.Quiescent := by
    intro i p hp
    by_contra hflight
    obtain ⟨j, q, u, -, -, hstep⟩ := ht.exists_advance R network hp (by simpa using hflight)
    rw [show step R network t (.advance j) = none from hrest _ ⟨j, rfl⟩] at hstep
    cases hstep
  refine ⟨hquiescent, fun id => ?_, fun hash => ?_, fun i p hp hgoing => ?_⟩
  · rw [rowLocked_eq_false]
    intro i p hp
    have hidle := hquiescent i p hp
    by_contra hholds
    have hup := (holdsRow_iff.mp (by simpa using hholds)).2.2
    rw [(remaining_of_hasUpdated hup).1] at hidle
    cases hidle
  · rw [hashTaken_eq_false]
    intro i p hp
    have hidle := hquiescent i p hp
    by_contra hholds
    have hpaid := (holdsHash_iff.mp (by simpa using hholds)).2.2
    rw [(remaining_of_hasPaid hpaid).1] at hidle
    cases hidle
  · obtain ⟨q, hq, hcall, hne⟩ := not_stopped_exec hbs hrun hp hgoing
    refine ⟨q, hq, hcall, ?_⟩
    have hidle := hquiescent i q hq
    cases hstage : q.stage with
    | returned b => exact .inl ⟨b, rfl⟩
    | threw e => exact .inr ⟨e, rfl⟩
    | stopped => exact absurd hstage hne
    | _ => rw [hstage] at hidle; cases hidle

/-- **The calls come to rest.** In every run of the workflow, however its statements are
    interleaved and whatever fails or stops: at most six statements are executed for each call
    that arrived; while a call is in flight, some call in flight can execute its next
    statement; and from the state reached, every schedule of statements is bounded by the work
    left, and one that cannot be continued has answered every call that was not stopped and
    leaves no row and no hash locked. Such a schedule exists. -/
theorem calls_come_to_rest (R : Runtime) (network : String) (s₀ s : State) (as : List Action)
    (h₀ : Fresh s₀) (hrun : (machine R network).exec s₀ as = some s) :
    as.countP (fun a => a.mover.isSome) + s.work ≤ 6 * as.countP Action.arrives ∧
    (∀ i p, s.call? i = some p → p.stage.inFlight = true → ∃ j q t, s.call? j = some q ∧
      q.stage.inFlight = true ∧ step R network s (.advance j) = some t) ∧
    (∀ bs t, (∀ a ∈ bs, a.IsStatement) → (machine R network).exec s bs = some t →
      bs.length ≤ s.work ∧
      ((machine R network).AtRest Action.IsStatement t → Answered s t)) ∧
    ∃ bs t, (∀ a ∈ bs, a.IsStatement) ∧ (machine R network).exec s bs = some t ∧
      (machine R network).AtRest Action.IsStatement t := by
  have h := ready_of_exec h₀ hrun
  refine ⟨?_, fun i p hp hflight => h.exists_advance R network hp hflight, fun bs t hbs ht => ⟨?_, ?_⟩,
    (machine R network).exists_run_to_rest work_drop s⟩
  · have hbudget : as.countP (fun a => a.mover.isSome) + s.work ≤
        s₀.work + 6 * as.countP Action.arrives :=
      (machine R network).exec_budget (fun _ _ _ hstep => work_step hstep) hrun
    have hnone : s₀.work = 0 := by simp [State.work, h₀.calls]
    omega
  · have hlength := (machine R network).length_le_potential work_drop hbs ht
    omega
  · exact fun hrest => h.answered hbs ht hrest

/-- Two calls of `fund` for one booking, of which the second waits for the first. -/
theorem calls_come_to_rest_waiting :
    ∃ s, (machine sampleRuntime "TESTNET").exec listed
        (bookSlot :: (fundSlot 0).take 4 ++ (fundSlot 1).take 2) = some s ∧
      step sampleRuntime "TESTNET" s (.advance 1) = none ∧
      ∃ bs t, (machine sampleRuntime "TESTNET").exec s bs = some t ∧ Answered s t := by
  obtain ⟨s, hrun, hwait⟩ : ∃ s, (machine sampleRuntime "TESTNET").exec listed
      (bookSlot :: (fundSlot 0).take 4 ++ (fundSlot 1).take 2) = some s ∧
      step sampleRuntime "TESTNET" s (.advance 1) = none := ⟨_, rfl, rfl⟩
  obtain ⟨-, -, hall, bs, t, hbs, ht, hrest⟩ :=
    calls_come_to_rest sampleRuntime "TESTNET" listed s _ fresh_listed hrun
  exact ⟨s, hrun, hwait, bs, t, ht, (hall bs t hbs ht).2 hrest⟩

end PovDeposit.Api.Workflow
